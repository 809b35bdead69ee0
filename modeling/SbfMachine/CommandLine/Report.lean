import SbfMachine.CommandLine.Command
import SbfMachine.Link.Load
import SbfMachine.Machine.Trace
import SbfMachine.Text.Literals

/-!
# Reports

What a command writes to its two outputs and the exit code that it ends with. A command is a
function of the contents of its files.

## Main definitions

- `Report` — the outputs and the exit code
- `Command.perform` — carrying out a command
-/

namespace SbfMachine.CommandLine

/-- What a command leaves behind. -/
structure Report where
  code : Nat
  out : String
  err : String

/-- The contents of files by path, or why one cannot be read. -/
abbrev Files := String → Except String ByteArray

namespace Report

def success (out : String) : Report where
  code := 0
  out
  err := ""

/-- The report of a command that failed before it wrote anything: what it was doing and why that
failed. -/
def failure (doing cause : String) : Report where
  code := 1
  out := ""
  err := s!"Error: {doing}\n\nCaused by:\n    {cause}\n"

/-- The exit code of a command line that is not well-formed. -/
def usageCode : Nat := 2

end Report

def readFile (files : Files) (what path : String) : Except Report ByteArray :=
  match files path with
  | .ok bytes => .ok bytes
  | .error cause => .error (.failure s!"Failed to read {what}{path}" cause)

/-- The program in a file, or the report that there is none. -/
def readProgram (files : Files) (path : String) (raw : Bool) : Except Report Program := do
  let bytes ← readFile files "" path
  let loaded := if raw then Program.ofText bytes else (·.program) <$> load bytes
  match loaded with
  | .ok program => return program
  | .error error => throw (.failure s!"Failed to load {path}" error.message)

def verifyReport (files : Files) (path : String) : Except Report Report := do
  let program ← readProgram files path false
  match program.verify with
  | .error error => throw (.failure s!"{path} failed verification" error.message)
  | .ok () =>
    let slots := program.slotCount
    let functions := program.functions.size
    return .success s!"{path}: ok ({slots} instructions, {functions} functions)\n"

def disasmReport (files : Files) (path : String) (raw : Bool) : Except Report Report := do
  let program ← readProgram files path raw
  return .success (listing program.textBytes)

/-- The value of a run that ended with one. -/
def value? : Option (Except Exception UInt64) → Option UInt64
  | some (.ok value) => some value
  | _ => none

/-- The wording of the exception of a run that ended with one. -/
def failure? : Option (Except Exception UInt64) → Option String
  | some (.error exception) => some exception.message
  | _ => none

def outcomeJson (outcome : Outcome) : String :=
  let machine := outcome.machine
  let result := outcome.result?
  let logs := Text.Json.array "  " (machine.log.toList.map Text.Json.string)
  Text.Json.object ""
    [("compute_remaining", toString machine.meter.remaining.toNat),
     ("compute_used", toString machine.meter.used.toNat),
     ("fault", Text.Json.optional ((failure? result).map Text.Json.string)),
     ("logs", logs),
     ("return_value", Text.Json.optional ((value? result).map fun value =>
       toString value.toNat))] ++ "\n"

def outcomeText (outcome : Outcome) : String :=
  let machine := outcome.machine
  let used := machine.meter.used.toNat
  let remaining := machine.meter.remaining.toNat
  let logs := machine.log.foldl (fun out line => out ++ line ++ "\n") ""
  let returned :=
    match value? outcome.result? with
    | some value => s!"Program returned {value.toNat} ({Text.hex value.toNat})\n"
    | none => ""
  logs ++ returned ++ s!"Consumed {used} compute units, {remaining} remaining\n"

def outcomeError (outcome : Outcome) : String :=
  match failure? outcome.result? with
  | some message => s!"Program failed: {message}\n"
  | none => ""

def runReport (files : Files) (arguments : RunArguments) : Except Report Report := do
  let program ← readProgram files arguments.program arguments.raw
  let input ←
    match arguments.input with
    | none => pure ByteArray.empty
    | some path => readFile files "input " path
  let options : Options :=
    { heapSize := arguments.heapSize, budget := arguments.budget, input }
  match Machine.boot program options with
  | .error error => throw (.failure "Verification failed" error.message)
  | .ok machine =>
    let outcome := machine.run program Registry.withBuiltins
    let code := if (value? outcome.result?).isSome then 0 else 1
    if arguments.json then return { code, out := outcomeJson outcome, err := "" }
    else return { code, out := outcomeText outcome, err := outcomeError outcome }

def Command.perform (files : Files) (command : Command) : Report :=
  let report :=
    match command with
    | .verify program => verifyReport files program
    | .disasm program raw => disasmReport files program raw
    | .run arguments => runReport files arguments
  match report with
  | .ok report => report
  | .error report => report

/-- Carries out a command line; nothing if it is not well-formed. -/
def perform? (files : Files) (words : List String) : Option Report :=
  (Command.ofArguments? words).map (Command.perform files)

end SbfMachine.CommandLine
