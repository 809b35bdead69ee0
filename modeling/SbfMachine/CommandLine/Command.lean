import SbfMachine.CommandLine.Arguments
import SbfMachine.AddressSpace

/-!
# Commands

The program is told what to do by its first argument: `verify` checks a program, `disasm` lists
its instructions and `run` executes it once. Each command takes one file.

## Main definitions

- `Command` — the commands with their arguments
- `Command.ofArguments?` — reading a command line
- `Command.paths` — the files that a command reads
-/

namespace SbfMachine.CommandLine

/-- What a run is given. -/
structure RunArguments where
  program : String
  raw : Bool
  input : Option String
  budget : UInt64
  heapSize : Nat
  json : Bool

/-- What the program is told to do. -/
inductive Command
  | verify (program : String)
  | disasm (program : String) (raw : Bool)
  | run (arguments : RunArguments)

/-- The option that says that the file is a bare text. -/
def rawRule : OptionRule := { name := "raw", letter := none, takesValue := false }

def runRules : List OptionRule :=
  [rawRule,
   { name := "input", letter := some 'i', takesValue := true },
   { name := "max-cu", letter := none, takesValue := true },
   { name := "heap-size", letter := none, takesValue := true },
   { name := "json", letter := none, takesValue := false }]

/-- A path is not empty. -/
def path? (text : String) : Option String :=
  if text.isEmpty then none else some text

def program? (arguments : Arguments) : Option String :=
  match arguments.operands with
  | [program] => path? program
  | _ => none

/-- The number that an option gives, or else a default. -/
def numberOr? (arguments : Arguments) (name : String) (fallback : Nat) : Option Nat :=
  match arguments.value? name with
  | none => some fallback
  | some text => naturalNumber? UInt64.size text

/-- The input file that a run is given, if any. -/
def input? (arguments : Arguments) : Option (Option String) :=
  match arguments.value? "input" with
  | none => some none
  | some text => (path? text).map some

def RunArguments.ofWords? (words : List String) : Option RunArguments := do
  let arguments ← Arguments.ofWords? runRules words
  let program ← program? arguments
  let input ← input? arguments
  let budget ← numberOr? arguments "max-cu" defaultBudget.toNat
  let heapSize ← numberOr? arguments "heap-size" defaultHeapSize
  return {
    program
    raw := arguments.has "raw"
    input
    budget := UInt64.ofNat budget
    heapSize
    json := arguments.has "json" }

namespace Command

/-- The command that a command line stands for, if it is well-formed. -/
def ofArguments? : List String → Option Command
  | "verify" :: words => do
    let program ← program? (← Arguments.ofWords? [] words)
    return .verify program
  | "disasm" :: words => do
    let arguments ← Arguments.ofWords? [rawRule] words
    let program ← program? arguments
    return .disasm program (arguments.has "raw")
  | "run" :: words => do
    return .run (← RunArguments.ofWords? words)
  | _ => none

def paths : Command → List String
  | .verify program | .disasm program _ => [program]
  | .run arguments => arguments.program :: arguments.input.toList

end Command

end SbfMachine.CommandLine
