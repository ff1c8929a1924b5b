import X86Disassembly.CommandLine.Number
import X86Disassembly.Mode
import X86Disassembly.Text.Terminal

/-!
# Arguments

Arguments are read from left to right. The value of an option may be attached to it, with or without
`=`, or be the next argument; a next argument with a dash is no value. A value that is not attached
is checked only when a later argument is understood, so an argument that is not understood is
reported before it.
-/

namespace X86Disassembly.CommandLine

/-- What an argument can set. -/
inductive Argument
  | file
  | hex
  | bits
  | cpu
  | origin
  | before
  | count
  | verbose
  | help
  | version
  deriving DecidableEq

namespace Argument

/-- The argument as messages name it. -/
def usage : Argument → String
  | file => "[FILE]"
  | hex => "--hex <HEX>"
  | bits => "--bits <BITS>"
  | cpu => "--cpu <CPU>"
  | origin => "--origin <ORIGIN>"
  | before => "--before <BEFORE>"
  | count => "--count <COUNT>"
  | verbose => "--verbose"
  | help => "--help"
  | version => "--version"

def ofLong? : String → Option Argument
  | "hex" => some hex
  | "bits" => some bits
  | "cpu" => some cpu
  | "origin" => some origin
  | "before" => some before
  | "count" => some count
  | "verbose" => some verbose
  | "help" => some help
  | "version" => some version
  | _ => none

def ofShort? : Char → Option Argument
  | 'b' => some bits
  | 'o' => some origin
  | 'c' => some count
  | 'v' => some verbose
  | 'h' => some help
  | 'V' => some version
  | _ => none

/-- The argument stands alone, without a value. -/
def isFlag : Argument → Bool
  | verbose | help | version => true
  | _ => false

end Argument

/-- Why arguments are refused. -/
inductive ArgumentError
  | invalidValue (argument : Argument) (value reason : String)
  | missingValue (argument : Argument)
  | repeated (argument : Argument)
  | conflict (first second : Argument)
  | noInput
  | unexpected (text : String)
  | unexpectedValue (argument : Argument) (value : String)
  deriving DecidableEq

namespace ArgumentError

open Text.Terminal in
/-- The message for a terminal. What stands in quotes is set off; the reason why a value is refused,
which may quote it again, is not. -/
def message : ArgumentError → String
  | invalidValue a value reason =>
    "invalid value '" ++ highlighted value ++ "' for '" ++ bold a.usage ++ "': " ++ reason
  | missingValue a => "a value is required for '" ++ bold a.usage ++ "' but none was supplied"
  | repeated a => "the argument '" ++ bold a.usage ++ "' cannot be used multiple times"
  | conflict a b =>
    "the argument '" ++ bold a.usage ++ "' cannot be used with '" ++ bold b.usage ++ "'"
  | noInput => "the following required arguments were not provided:"
  | unexpected text => "unexpected argument '" ++ highlighted text ++ "' found"
  | unexpectedValue a value =>
    "unexpected value '" ++ highlighted value ++ "' for '" ++ bold a.usage
      ++ "' found; no more were expected"

/-- The message and a hint, as they are shown where there is no terminal. -/
def text (e : ArgumentError) : String :=
  Text.Terminal.visible
    ("error: " ++ e.message ++ "\n\nFor more information, try '" ++ Text.Terminal.bold "--help"
      ++ "'.\n")

end ArgumentError

/-- The settings of a run. -/
structure Options where
  file : Option String := none
  hex : Option String := none
  bits : Nat := 16
  cpu : Processor := .i386
  origin : UInt32 := 0
  before : Option UInt32 := none
  count : Nat := 8
  verbose : Bool := false
  deriving DecidableEq

/-- What the arguments ask for. -/
inductive Request
  | help
  | version
  | run (options : Options)
  deriving DecidableEq

/-- Why reading the arguments ends before the last one. -/
inductive Stop
  | help
  | version
  | refused (e : ArgumentError)
  deriving DecidableEq

/-- Arguments that have been read. -/
structure Reading where
  options : Options := {}
  /-- The arguments set so far, the last one first. -/
  seen : List Argument := []
  /-- An argument that is not set yet, with its value if that has been read. -/
  pending : Option (Argument × Option String) := none
  /-- The file has been named. -/
  fileNamed : Bool := false
  deriving DecidableEq

/-- Read the width of code. -/
def readBits (text : String) : Except String Nat :=
  match readNumber 10 UInt32.size text.toList with
  | .ok 16 => .ok 16
  | .ok 32 => .ok 32
  | _ => .error ("invalid bit width: " ++ text ++ " (expected 16 or 32)")

/-- Read the name of a processor. -/
def readProcessor (text : String) : Except String Processor :=
  match text with
  | "8086" | "8088" => .ok .i8086
  | "386" | "486" | "586" => .ok .i386
  | _ => .error ("unknown cpu: " ++ text ++ " (expected 8086 or 386)")

/-- The options with one argument set to a value; or why it is no value for that argument. -/
def Options.set (o : Options) (a : Argument) (value : String) : Except String Options :=
  match a with
  | .file => .ok { o with file := some value }
  | .hex => .ok { o with hex := some value }
  | .bits => (readBits value).map fun bits => { o with bits }
  | .cpu => (readProcessor value).map fun cpu => { o with cpu }
  | .origin =>
    ((readAddress value).mapError (·.message)).map fun origin => { o with origin }
  | .before =>
    ((readAddress value).mapError (·.message)).map fun before => { o with before := some before }
  | .count => ((readCount value).mapError (·.message)).map fun count => { o with count }
  | .verbose => .ok { o with verbose := true }
  | .help | .version => .ok o

namespace Reading

/-- Set an argument that has not been set before. The name of a file is not empty. -/
def assign (r : Reading) (a : Argument) (value : String) : Except Stop Reading :=
  if a ∈ r.seen then .error (.refused (.repeated a))
  else if a = .file ∧ value = "" then .error (.refused (.missingValue a))
  else
    match r.options.set a value with
    | .ok options => .ok { r with options, seen := a :: r.seen }
    | .error reason => .error (.refused (.invalidValue a value reason))

/-- Set the pending argument. -/
def settle (r : Reading) : Except Stop Reading :=
  match r.pending with
  | none => .ok r
  | some (a, none) => .error (.refused (.missingValue a))
  | some (a, some value) => { r with pending := none }.assign a value

/-- Read an argument by its name, with the value attached to it if there is one. -/
def named (r : Reading) (a : Argument) (attached : Option String) : Except Stop Reading := do
  let r ← r.settle
  match a, attached with
  | .help, _ => .error .help
  | .version, _ => .error .version
  | .verbose, _ => r.assign .verbose ""
  | a, some value => r.assign a value
  | a, none => .ok { r with pending := some (a, none) }

/-- Read an argument of the form `--name` or `--name=value`. -/
def long (r : Reading) (name : String) (attached : Option String) : Except Stop Reading :=
  match Argument.ofLong? name, attached with
  | none, _ => .error (.refused (.unexpected ("--" ++ name)))
  | some a, some value =>
    if a.isFlag then .error (.refused (.unexpectedValue a value)) else r.named a (some value)
  | some a, none => r.named a none

/-- The value attached to a short option, if any. -/
def attachedValue : List Char → Option String
  | [] => none
  | '=' :: value => some (String.ofList value)
  | value => some (String.ofList value)

/-- Read the letters after a dash: flags, and at last an option that takes the rest. -/
def short (r : Reading) : List Char → Except Stop Reading
  | [] => .ok r
  | c :: rest =>
    match Argument.ofShort? c with
    | none => .error (.refused (.unexpected ("-" ++ c.toString)))
    | some a =>
      if a.isFlag then do (← r.named a none).short rest else r.named a (attachedValue rest)

/-- Read the name of the file. -/
def positional (r : Reading) (text : String) : Except Stop Reading :=
  if r.fileNamed then .error (.refused (.unexpected text))
  else do
    let r ← r.settle
    return { r with pending := some (.file, some text), fileNamed := true }

/-- Read an argument that is not an option: a value that is waited for, or the file. -/
def plain (r : Reading) (text : String) : Except Stop Reading :=
  match r.pending with
  | some (a, none) => .ok { r with pending := some (a, some text) }
  | _ => r.positional text

end Reading

/-- A text up to the first `=` and, if there is one, the text after it. -/
def splitValue (text : List Char) : String × Option String :=
  let name := text.takeWhile (· ≠ '=')
  match text.dropWhile (· ≠ '=') with
  | [] => (String.ofList name, none)
  | _ :: value => (String.ofList name, some (String.ofList value))

/-- Read one argument before any `--`. -/
def Reading.next (r : Reading) (text : String) : Except Stop Reading :=
  match text.toList with
  | '-' :: '-' :: rest =>
    let (name, attached) := splitValue rest
    r.long name attached
  | '-' :: c :: rest => r.short (c :: rest)
  | _ => r.plain text

/-- Read all arguments. After `--` every argument is the file. -/
def readAll : List String → Reading → Except Stop Reading
  | [], r => r.settle
  | "--" :: files, r => do (← files.foldlM Reading.positional r).settle
  | a :: rest, r => do readAll rest (← r.next a)

/-- Bytes come from a file or from the arguments, not from both. Of two the first is named first. -/
def checkInput (r : Reading) : Except ArgumentError Options :=
  match r.options.file, r.options.hex with
  | none, none => .error .noInput
  | some _, some _ =>
    if r.seen.find? (fun a => a = .file ∨ a = .hex) = some .hex then .error (.conflict .file .hex)
    else .error (.conflict .hex .file)
  | _, _ => .ok r.options

/-- What a list of arguments asks for. -/
def readArguments (arguments : List String) : Except ArgumentError Request :=
  match readAll arguments {} with
  | .error .help => .ok .help
  | .error .version => .ok .version
  | .error (.refused e) => .error e
  | .ok r => (checkInput r).map .run

end X86Disassembly.CommandLine
