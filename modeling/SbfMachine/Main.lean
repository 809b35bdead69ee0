import SbfMachine.CommandLine.Report

/-!
# The command line program

Reads the files that a command names and writes its report.
-/

namespace SbfMachine.CommandLine

/-- The wording of an input error. -/
def readErrorMessage : IO.Error → String
  | .noFileOrDirectory .. => "No such file or directory (os error 2)"
  | .permissionDenied .. => "Permission denied (os error 13)"
  | error => toString error

/-- The contents of a file, or why it cannot be read. -/
def readPath (path : String) : IO (Except String ByteArray) := do
  try
    return .ok (← IO.FS.readBinFile path)
  catch error =>
    return .error (readErrorMessage error)

/-- The contents of some files by path. -/
def filesOf (contents : List (String × Except String ByteArray)) : Files := fun path =>
  match contents.find? (·.1 = path) with
  | some (_, content) => content
  | none => .error "No such file or directory (os error 2)"

end SbfMachine.CommandLine

/-- Carries out the command line. -/
def main (words : List String) : IO UInt32 := do
  match SbfMachine.CommandLine.Command.ofArguments? words with
  | none =>
    IO.eprintln "usage: verify PROGRAM | disasm PROGRAM [--raw] | run PROGRAM [OPTIONS]"
    return UInt32.ofNat SbfMachine.CommandLine.Report.usageCode
  | some command =>
    let contents ← command.paths.mapM fun path =>
      return (path, ← SbfMachine.CommandLine.readPath path)
    let report := command.perform (SbfMachine.CommandLine.filesOf contents)
    IO.print report.out
    IO.eprint report.err
    return UInt32.ofNat report.code
