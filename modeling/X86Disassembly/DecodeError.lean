import X86Disassembly.Text.Hex

/-!
# Decoding errors

The bounds on the length of an instruction, and what can be wrong with bytes that are not one.
-/

namespace X86Disassembly

/-- No instruction has fewer bytes. -/
def minLength : Nat := 1

/-- No instruction has more bytes, prefixes included. -/
def maxLength : Nat := 15

/-- Why bytes are not an instruction. -/
inductive Fault
  /-- The source ended: `needed` bytes are the least that would have gone further, `available` were
  there. -/
  | truncated (needed available : Nat)
  /-- The bytes read so far start no instruction. -/
  | undefined (bytes : List UInt8)
  | tooLong (limit : Nat)
  deriving DecidableEq

/-- A fault with the address decoding started at. -/
structure DecodeError where
  address : UInt32
  fault : Fault
  deriving DecidableEq

namespace DecodeError

/-- Bytes in brackets, divided by commas. -/
def byteList (bytes : List UInt8) : String :=
  "[" ++ ", ".intercalate (bytes.map (Text.hexByte .lower)) ++ "]"

def message (e : DecodeError) : String :=
  let place := Text.hexNumber e.address.toNat
  match e.fault with
  | .truncated needed available =>
    "truncated instruction at " ++ place ++ ": need " ++ Text.decimal needed ++ " bytes, have "
      ++ Text.decimal available
  | .undefined bytes => "invalid opcode at " ++ place ++ ": " ++ byteList bytes
  | .tooLong limit => "instruction at " ++ place ++ " exceeds " ++ Text.decimal limit ++ " bytes"

end DecodeError

end X86Disassembly
