import X86Disassembly.CommandLine.Report

/-!
# The command

Reads the file that the arguments name, and prints the report of the run.
-/

namespace X86Disassembly

open CommandLine (FileError)

/-- The error number of a failed operation on a file. -/
def errorCode : IO.Error → UInt32
  | .noFileOrDirectory _ code _ | .inappropriateType _ code _ | .permissionDenied _ code _
  | .invalidArgument _ code _ | .resourceExhausted _ code _ | .otherError code _ => code
  | _ => 0

/-- The content of a file. -/
def readFile (path : String) : IO (Except FileError (Array UInt8)) := do
  try
    return .ok (← IO.FS.readBinFile path).data
  catch e =>
    return .error (.ofCode (errorCode e) (toString e))

end X86Disassembly

open X86Disassembly in
def main (arguments : List String) : IO UInt32 := do
  let content ← match CommandLine.inputFile? arguments with
    | some path => readFile path
    | none => pure (.ok #[])
  let report := CommandLine.run arguments fun _ => content
  (← IO.getStdout).putStr report.stdout
  (← IO.getStderr).putStr report.stderr
  return report.exitCode.toUInt32
