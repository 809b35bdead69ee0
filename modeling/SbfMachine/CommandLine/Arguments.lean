/-!
# Arguments

How a list of words is taken apart into options and operands. An option is `--name`, with a value
in the same word after `=` or in the next word, or one letter after a dash, with a value in the
same or in the next word. Everything behind `--` is an operand. An option stands at most once.

## Main definitions

- `OptionRule` — an option that a command knows
- `Arguments` — the options and operands that were given
- `Arguments.ofWords?` — taking words apart
- `naturalNumber?` — numbers as values
-/

namespace SbfMachine.CommandLine

/-- An option that a command knows. -/
structure OptionRule where
  name : String
  /-- A letter that stands for the name. -/
  letter : Option Char
  takesValue : Bool

/-- The options that were given, with their values, and the operands. -/
structure Arguments where
  options : List (String × Option String)
  operands : List String

namespace Arguments

def empty : Arguments where
  options := []
  operands := []

/-- Adds an option, unless it was given before. -/
def withOption? (arguments : Arguments) (name : String) (value : Option String) :
    Option Arguments :=
  if arguments.options.any (·.1 = name) then none
  else some { arguments with options := arguments.options ++ [(name, value)] }

def withOperands (arguments : Arguments) (operands : List String) : Arguments :=
  { arguments with operands := arguments.operands ++ operands }

def has (arguments : Arguments) (name : String) : Bool :=
  arguments.options.any (·.1 = name)

def value? (arguments : Arguments) (name : String) : Option String :=
  (arguments.options.find? (·.1 = name)).bind (·.2)

/-- What a word means. -/
inductive Word
  | operand
  /-- From here on everything is an operand. -/
  | separator
  /-- An option by name, with a value in the same word. -/
  | long (name : String) (value : Option String)
  /-- An option by letter, with the rest of the word. -/
  | short (letter : Char) (rest : List Char)

/-- The meaning of a word. A single dash is an operand. -/
def Word.ofString (word : String) : Word :=
  match word.toList with
  | ['-', '-'] => .separator
  | '-' :: '-' :: name =>
    match name.span (· ≠ '=') with
    | (name, _ :: value) => .long (String.ofList name) (some (String.ofList value))
    | (name, []) => .long (String.ofList name) none
  | '-' :: letter :: rest => .short letter rest
  | _ => .operand

/-- Whether a word can be the value of the option before it. -/
def isValue (word : String) : Bool :=
  match Word.ofString word with
  | .operand => true
  | _ => false

def attachedValue? : List Char → Option String
  | [] => none
  | '=' :: value => some (String.ofList value)
  | value => some (String.ofList value)

/-- Takes an option that may have a value in the same word. The words after it supply a value
that is missing. -/
def takeOption? (arguments : Arguments) (rule : OptionRule) (attached : Option String)
    (rest : List String) : Option (Arguments × List String) :=
  match rule.takesValue, attached, rest with
  | false, none, rest => (arguments.withOption? rule.name none).map (·, rest)
  | false, some _, _ => none
  | true, some value, rest => (arguments.withOption? rule.name (some value)).map (·, rest)
  | true, none, value :: rest =>
    if isValue value then (arguments.withOption? rule.name (some value)).map (·, rest) else none
  | true, none, [] => none

/-- Takes one word, and for some options the next one. -/
def takeWord? (rules : List OptionRule) (arguments : Arguments) (word : String)
    (rest : List String) : Option (Arguments × List String) :=
  match Word.ofString word with
  | .operand => some (arguments.withOperands [word], rest)
  | .separator => some (arguments.withOperands rest, [])
  | .long name value =>
    (rules.find? (·.name = name)).bind fun rule => arguments.takeOption? rule value rest
  | .short letter attached =>
    (rules.find? (·.letter = some letter)).bind fun rule =>
      arguments.takeOption? rule (attachedValue? attached) rest

/-- Takes at most `bound` words. -/
def takeWords? (rules : List OptionRule) :
    (bound : Nat) → Arguments → List String → Option Arguments
  | _, arguments, [] => some arguments
  | 0, _, _ => none
  | bound + 1, arguments, word :: rest =>
    match arguments.takeWord? rules word rest with
    | none => none
    | some (arguments, rest) => takeWords? rules bound arguments rest

/-- The options and operands among words. -/
def ofWords? (rules : List OptionRule) (words : List String) : Option Arguments :=
  takeWords? rules words.length empty words

end Arguments

/-- The decimal number that a text consists of, if it is smaller than `bound`. A plus sign may
come before it. -/
def naturalNumber? (bound : Nat) (text : String) : Option Nat :=
  let digits :=
    match text.toList with
    | '+' :: digits => digits
    | digits => digits
  if digits.isEmpty || !digits.all Char.isDigit then none
  else
    let number := digits.foldl (fun number digit => 10 * number + (digit.toNat - '0'.toNat)) 0
    if number < bound then some number else none

end SbfMachine.CommandLine
