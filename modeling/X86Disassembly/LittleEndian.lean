/-!
# Little-endian numbers

Numbers stand in the code with their low byte first. `value` reads one of any length, and
`signExtended` reads one in two's complement, widened to 32 bits.
-/

namespace X86Disassembly.LittleEndian

/-- The number whose bytes are given, low byte first. -/
def value : List UInt8 → Nat
  | [] => 0
  | b :: rest => b.toNat + 256 * value rest

/-- The 32-bit word with the given low bytes and zeros above. -/
def zeroExtended (bytes : List UInt8) : UInt32 :=
  UInt32.ofNat (value bytes)

/-- The 32-bit word with the given low bytes and copies of their top bit above. -/
def signExtended (bytes : List UInt8) : UInt32 :=
  let v := value bytes
  let span := 1 <<< (8 * bytes.length)
  UInt32.ofNat (if 2 * v < span then v else v + (UInt32.size - span))

/-- The low `count` bytes of a number, low byte first. -/
def bytes : Nat → Nat → List UInt8
  | 0, _ => []
  | count + 1, n => UInt8.ofNat n :: bytes count (n / 256)

end X86Disassembly.LittleEndian
