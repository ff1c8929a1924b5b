import X86Disassembly.Boundary
import X86Disassembly.Text.Assembly

/-!
# Listings

Lines of code around an address, as a debugger shows them. Lines from the address on are decoded
one after another; lines before it are found backwards.
-/

namespace X86Disassembly

namespace Listing

/-- One instruction with its place, its bytes and its text. -/
structure Line where
  address : UInt32
  addressText : String
  bytesText : String
  text : String
  size : Nat
  instruction : Instruction
  deriving DecidableEq

/-- Bytes as pairs of digits, divided by blanks. -/
def byteText (bytes : List UInt8) : String :=
  " ".intercalate (bytes.map (Text.hexByte .upper))

/-- The line of an instruction. Its bytes are read from memory. -/
def lineOf (memory : Memory) (address : UInt32) (i : Instruction) : Line where
  address := address
  addressText := Text.fixed .upper 8 address.toNat
  bytesText := byteText (memory.readRun address i.length)
  text := i.text
  size := i.length
  instruction := i

/-- The line at an address. -/
def lineAt (mode : Mode) (memory : Memory) (address : UInt32) : Except DecodeError Line :=
  (decodeAt mode memory address).map (lineOf memory address)

/-- Up to `count` lines from an address on. They stop before a place that cannot be decoded and
after the last address. -/
def run (mode : Mode) (memory : Memory) (address : UInt32) : (count : Nat) → List Line
  | 0 => []
  | count + 1 =>
    match lineAt mode memory address with
    | .error _ => []
    | .ok line =>
      if address.toNat + line.size < UInt32.size then
        line :: run mode memory (address + UInt32.ofNat line.size) count
      else [line]

/-- A line among others: three texts of 24 bytes, an instruction of 72, and two numbers of 4. -/
def lineLayout : Layout where
  size := 3 * 24 + 72 + 2 * 4
  alignment := 8

/-- List up to `count` lines from an address on. Room for all of them is asked for at first. -/
def after (mode : Mode) (memory : Memory) (address : UInt32) (count : Nat) :
    Except Panic (List Line) := do
  lineLayout.reserve count
  return run mode memory address count

/-- The lines at some addresses, without those that cannot be decoded. -/
def linesAt (mode : Mode) (memory : Memory) (starts : List UInt32) : List Line :=
  starts.filterMap fun start => (lineAt mode memory start).toOption

/-- List up to `count` lines that end at an address. -/
def before (mode : Mode) (memory : Memory) (address : UInt32) (count : Nat) :
    Except Panic (List Line) := do
  let starts ← Boundary.before mode memory .longest address count
  return linesAt mode memory starts

/-- Lines on both sides of an address. -/
def window (mode : Mode) (memory : Memory) (address : UInt32) (linesBefore linesAfter : Nat) :
    Except Panic (List Line) := do
  let earlier ← before mode memory address linesBefore
  let later ← after mode memory address linesAfter
  return earlier ++ later

end Listing

end X86Disassembly
