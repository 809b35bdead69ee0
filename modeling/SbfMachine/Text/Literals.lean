import SbfMachine.Text.Invisible

/-!
# Numbers and texts in what is written

Unsigned numbers in lowercase hexadecimal after `0x`; names as they stand in a message, in double
quotes, where an apostrophe stands as it is; and the pieces of a JSON document that a report
consists of, set out with an indentation of two spaces.

## Main definitions

- `Text.hex`, `Text.hexPadded` — a number with as few digits as possible, or with leading zeros
- `Text.escape`, `Text.quote` — the quoted form of one character and of a whole text
- `Json.string`, `Json.array`, `Json.object` — JSON values
-/

namespace SbfMachine.Text

/-- The hexadecimal digit of a number below sixteen. -/
def hexDigit (n : Nat) : Char :=
  Char.ofNat (if n < 10 then '0'.toNat + n else 'a'.toNat + (n - 10))

/-- The hexadecimal digits of `n`, most significant first; `0` has the one digit `0`. -/
def hexDigits (n : Nat) : List Char :=
  if n < 16 then [hexDigit n] else hexDigits (n / 16) ++ [hexDigit (n % 16)]

/-- `n` in hexadecimal after `0x`, without leading zeros. -/
def hex (n : Nat) : String :=
  "0x" ++ String.ofList (hexDigits n)

/-- `n` in hexadecimal after `0x`, with at least `width` digits. -/
def hexPadded (width : Nat) (n : Nat) : String :=
  let digits := hexDigits n
  "0x" ++ String.ofList (List.replicate (width - digits.length) '0' ++ digits)

/-- A character by its number. -/
def escapeNumber (c : Char) : List Char :=
  ['\\', 'u', '\x7b'] ++ hexDigits c.toNat ++ ['\x7d']

/-- The form of a character inside quotes: a backslash before a quote or a backslash, short escapes
for NUL, tab, line feed and carriage return, and the number of any other character that would not
show. -/
def escape (c : Char) : List Char :=
  if c = '"' then ['\\', '"']
  else if c = '\\' then ['\\', '\\']
  else if c = '\x00' then ['\\', '0']
  else if c = '\t' then ['\\', 't']
  else if c = '\n' then ['\\', 'n']
  else if c = '\r' then ['\\', 'r']
  else if c.toNat < 0x20 then escapeNumber c
  else if c.toNat < 0x7f then [c]
  else if isInvisible c then escapeNumber c
  else [c]

/-- A text in double quotes. -/
def quote (text : String) : String :=
  "\"" ++ String.ofList (text.toList.flatMap escape) ++ "\""

namespace Json

/-- The form of a character in a string. Only quotes, backslashes and control characters are
escaped. -/
def escape (c : Char) : List Char :=
  if c = '"' then ['\\', '"']
  else if c = '\\' then ['\\', '\\']
  else if c = '\x08' then ['\\', 'b']
  else if c = '\x0c' then ['\\', 'f']
  else if c = '\n' then ['\\', 'n']
  else if c = '\r' then ['\\', 'r']
  else if c = '\t' then ['\\', 't']
  else if c.toNat < 0x20 then
    ['\\', 'u', '0', '0', hexDigit (c.toNat / 16), hexDigit (c.toNat % 16)]
  else [c]

def string (text : String) : String :=
  "\"" ++ String.ofList (text.toList.flatMap escape) ++ "\""

/-- A value that need not be there. -/
def optional : Option String → String
  | none => "null"
  | some value => value

/-- Values between brackets, each on a line of its own behind `indent`; nothing stands between
the brackets if there are no values. -/
def block (first last indent : String) (values : List String) : String :=
  if values.isEmpty then first ++ last
  else
    let lines := values.map fun value => "\n" ++ indent ++ "  " ++ value
    first ++ ",".intercalate lines ++ "\n" ++ indent ++ last

/-- An array whose brackets stand behind `indent`. -/
def array (indent : String) (values : List String) : String :=
  block "[" "]" indent values

/-- An object whose braces stand behind `indent`. -/
def object (indent : String) (fields : List (String × String)) : String :=
  block "\x7b" "\x7d" indent (fields.map fun (name, value) => string name ++ ": " ++ value)

end Json

end SbfMachine.Text
