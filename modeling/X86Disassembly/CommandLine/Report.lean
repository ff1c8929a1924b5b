import X86Disassembly.Block
import X86Disassembly.CommandLine.Arguments
import X86Disassembly.CommandLine.FileError
import X86Disassembly.CommandLine.HexText
import X86Disassembly.Listing

/-!
# Running the command

The command lists a whole image, or the instructions before an address of it. All that it prints is
a `Report`; nothing is printed before the report is complete.
-/

namespace X86Disassembly.CommandLine

/-- What a run leaves behind. -/
structure Report where
  exitCode : UInt8
  stdout : String
  stderr : String
  deriving DecidableEq

/-- How important a note is. -/
inductive Level
  | info
  | debug
  deriving DecidableEq

/-- The level in five columns. -/
def Level.label : Level → String
  | info => "INFO "
  | debug => "DEBUG"

/-- A remark about the run, printed when the command is verbose. -/
structure Note where
  level : Level
  topic : String
  message : String
  deriving DecidableEq

namespace Note

/-- The topics of notes. -/
def command : String := "dis86"
def boundary : String := "dis86_disasm::scanner"
def listing : String := "dis86_disasm::listing"

/-- A note as it is shown where there is no terminal: a line, in which further lines of the message
are indented. -/
def text (n : Note) : String :=
  Text.Terminal.visible
    ("[" ++ n.level.label ++ " " ++ n.topic ++ "] "
      ++ "\n    ".intercalate (n.message.splitOn "\n") ++ "\n")

end Note

/-- Why a run fails. -/
inductive Failure
  | badHex (e : HexError)
  | unreadable (path : String) (e : FileError)
  | unsupported (cpu : Processor) (bits : Nat)
  | outside (target origin limit : UInt32)
  | noBoundary (target : UInt32)
  | undecoded (count : Nat)
  deriving DecidableEq

namespace Failure

def message : Failure → String
  | badHex _ => "Failed to parse hex string"
  | unreadable path _ => "Failed to read code file: " ++ path
  | unsupported cpu bits => cpu.name ++ " cannot decode " ++ Text.decimal bits ++ "-bit code"
  | outside target origin limit =>
    "Address " ++ Text.hexNumber target.toNat ++ " is outside the image ("
      ++ Text.hexNumber origin.toNat ++ ".." ++ Text.hexNumber limit.toNat ++ ")"
  | noBoundary target => "No instruction boundary found before " ++ Text.hexNumber target.toNat
  | undecoded count => Text.decimal count ++ " byte(s) could not be decoded"

/-- What lies behind a failure, where that is known. -/
def cause : Failure → Option String
  | badHex e => some e.message
  | unreadable _ e => some e.message
  | _ => none

def text (f : Failure) : String :=
  "Error: " ++ f.message ++ "\n"
    ++ (match f.cause with
      | none => ""
      | some cause => "\nCaused by:\n    " ++ cause ++ "\n")

end Failure

/-- A line of output: an address, bytes in a column, and text. -/
structure Row where
  address : UInt32
  bytes : List UInt8
  text : String
  deriving DecidableEq

/-- An address as `0x` and eight digits. -/
def addressColumn (a : UInt32) : String :=
  "0x" ++ Text.fixed .upper 8 a.toNat

def Row.line (r : Row) : String :=
  addressColumn r.address ++ " | " ++ byteColumn r.bytes ++ " | " ++ r.text ++ "\n"

/-- Bytes that are shown where no instruction can be decoded. -/
def errorBytes : Nat := 16

/-- The row for one place of a walk. -/
def rowOfStep (s : Block.Step) : Row :=
  match s.outcome with
  | .ok i => ⟨i.address, s.rest.take i.length, i.text⟩
  | .error e => ⟨e.address, s.rest.take errorBytes, "<decode error>"⟩

/-- What is reported of one place of a walk: nothing of an instruction. -/
def complaint (s : Block.Step) : String :=
  match s.outcome with
  | .ok _ => ""
  | .error e =>
    "Failed to decode instruction at address " ++ addressColumn e.address ++ " (offset 0x"
      ++ Text.padded .upper 8 s.offset ++ "): " ++ e.message ++ "\n"
      ++ "Bytes at failure point: " ++ Listing.byteText (s.rest.take errorBytes) ++ "\n"

/-- How many places of a walk hold no instruction. -/
def failureCount (steps : List Block.Step) : Nat :=
  steps.countP fun s => s.outcome matches .error _

/-- A report that ends a run, with what was noted before. -/
def finish (rows : List Row) (stderr : String) (failure : Option Failure) : Report where
  exitCode := if failure.isSome then 1 else 0
  stdout := String.join (rows.map Row.line)
  stderr := stderr ++ (failure.map Failure.text).getD ""

/-- List a whole image. -/
def listImage (mode : Mode) (image : Image) : Report :=
  let steps := Block.steps mode image.bytes.toList image.origin
  let count := failureCount steps
  finish (steps.map rowOfStep) (String.join (steps.map complaint))
    (if 0 < count then some (.undecoded count) else none)

/-- The row for a line of a listing. -/
def rowOfLine (image : Image) (l : Listing.Line) : Row :=
  ⟨l.address, image.memory.readRun l.address l.size, l.text⟩

/-- The report of a run that is broken off. The place in the program, which is shown besides the
message, is left out. -/
def broken (p : Panic) : Report where
  exitCode := 101
  stdout := ""
  stderr := p.message ++ "\n"

/-- List up to `count` instructions that end at a target. -/
def listBefore (mode : Mode) (image : Image) (target : UInt32) (count : Nat) : Report :=
  if target < image.origin ∨ image.limit < target then
    finish [] "" (some (.outside target image.origin image.limit))
  else
    match Listing.before mode image.memory target count with
    | .error p => broken p
    | .ok [] => finish [] "" (some (.noBoundary target))
    | .ok lines => finish (lines.map (rowOfLine image)) "" none

/-- What is noted while looking backwards: where the search ended and how far it came, if it came
short. Nothing is noted of a search at address zero, or of one that is broken off. -/
def notesBefore (mode : Mode) (image : Image) (target : UInt32) (count : Nat) : List Note :=
  match Boundary.before mode image.memory .longest target count with
  | .error _ => []
  | .ok starts =>
    if starts.length < count then
      let last := starts.head?.getD target
      (if last = 0 then []
        else [⟨.debug, Note.boundary,
          "no instruction boundary found before " ++ Text.hexNumber last.toNat⟩])
      ++ [⟨.debug, Note.listing,
          "backward listing from " ++ Text.hexNumber target.toNat ++ " stopped after "
            ++ Text.decimal starts.length ++ " of " ++ Text.decimal count ++ " lines"⟩]
    else []

/-- What is noted of the image before it is listed. -/
def notesOf (o : Options) (mode : Mode) (image : Image) : List Note :=
  [⟨.debug, Note.command, "Assuming " ++ Text.decimal o.bits ++ "-bit code for " ++ o.cpu.name⟩,
    ⟨.debug, Note.command, "Origin address: " ++ addressColumn o.origin⟩]
  ++ match o.before with
    | some target =>
      if target < image.origin ∨ image.limit < target then []
      else notesBefore mode image target o.count
    | none => []

/-- The bytes to decode, with what is noted on the way. -/
def readCode (o : Options) (readFile : String → Except FileError (Array UInt8)) :
    List Note × Except Failure (Array UInt8) :=
  match o.hex, o.file with
  | some text, _ =>
    match readBytes text with
    | .ok bytes =>
      ([⟨.info, Note.command, "Parsed " ++ Text.decimal bytes.length ++ " bytes of hex string"⟩],
        .ok bytes.toArray)
    | .error e => ([], .error (.badHex e))
  | none, path =>
    let path := path.getD ""
    ([⟨.debug, Note.command, "Reading input file: " ++ path⟩],
      (readFile path).mapError (.unreadable path))

/-- A report with notes before all else on the error stream. -/
def Report.withNotes (r : Report) (o : Options) (notes : List Note) : Report :=
  if o.verbose then { r with stderr := String.join (notes.map Note.text) ++ r.stderr } else r

/-- Run with the settings of the arguments. -/
def runOptions (o : Options) (readFile : String → Except FileError (Array UInt8)) : Report :=
  match readCode o readFile with
  | (notes, .error e) => (finish [] "" (some e)).withNotes o notes
  | (notes, .ok bytes) =>
    match Mode.ofBits? o.cpu o.bits with
    | none => (finish [] "" (some (.unsupported o.cpu o.bits))).withNotes o notes
    | some mode =>
      let image : Image := ⟨o.origin, bytes⟩
      let report := match o.before with
        | some target => listBefore mode image target o.count
        | none => listImage mode image
      report.withNotes o (notes ++ notesOf o mode image)

/-- What the arguments are for. -/
def helpText : String :=
  "A 16/32-bit x86 disassembler\n\n"
    ++ "Usage: dis86 [OPTIONS] [FILE]\n\n"
    ++ "Arguments:\n"
    ++ "  [FILE]  Path to a raw code file\n\n"
    ++ "Options:\n"
    ++ "      --hex <HEX>        Decode bytes given as hex text; whitespace and commas are ignored\n"
    ++ "  -b, --bits <BITS>      Code width: 16 or 32 [default: 16]\n"
    ++ "      --cpu <CPU>        Processor opcode map: 8086 (also 8088) or 386 (also 486, 586) "
    ++ "[default: 386]\n"
    ++ "  -o, --origin <ORIGIN>  Address of the first byte (0x-prefixed hex or decimal) "
    ++ "[default: 0]\n"
    ++ "      --before <BEFORE>  List the instructions that end at this address instead\n"
    ++ "  -c, --count <COUNT>    Number of instructions listed by --before [default: 8]\n"
    ++ "  -v, --verbose          Enable debug logging\n"
    ++ "  -h, --help             Print help\n"
    ++ "  -V, --version          Print version\n"

/-- Run with a list of arguments and the files that can be read; a file that cannot be read has the
reason for it. -/
def run (arguments : List String) (readFile : String → Except FileError (Array UInt8)) : Report :=
  match readArguments arguments with
  | .error e => ⟨2, "", e.text⟩
  | .ok .help => ⟨0, helpText, ""⟩
  | .ok .version => ⟨0, "dis86 0.1.0\n", ""⟩
  | .ok (.run options) => runOptions options readFile

/-- The file that a list of arguments names for reading. -/
def inputFile? (arguments : List String) : Option String :=
  match readArguments arguments with
  | .ok (.run options) => if options.hex.isSome then none else options.file
  | _ => none

end X86Disassembly.CommandLine
