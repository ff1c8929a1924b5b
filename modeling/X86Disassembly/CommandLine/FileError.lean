/-!
# Files that cannot be read
-/

namespace X86Disassembly.CommandLine

/-- Why a file cannot be read. -/
inductive FileError
  | notFound
  | accessDenied
  | notDirectory
  | isDirectory
  | nameTooLong
  | other (reason : String)
  deriving DecidableEq

namespace FileError

def message : FileError → String
  | notFound => "No such file or directory (os error 2)"
  | accessDenied => "Permission denied (os error 13)"
  | notDirectory => "Not a directory (os error 20)"
  | isDirectory => "Is a directory (os error 21)"
  | nameTooLong => "File name too long (os error 36)"
  | other reason => reason

/-- The error with a system's error number; other numbers keep the reason they come with. -/
def ofCode (code : UInt32) (reason : String) : FileError :=
  match code with
  | 2 => notFound
  | 13 => accessDenied
  | 20 => notDirectory
  | 21 => isDirectory
  | 36 => nameTooLong
  | _ => other reason

end FileError

end X86Disassembly.CommandLine
