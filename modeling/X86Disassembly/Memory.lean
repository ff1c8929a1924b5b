/-!
# Code memory

A view of memory says which addresses can be read and what they hold. There are 2 ^ 32 addresses.
-/

namespace X86Disassembly

/-- What can be read at each address. -/
structure Memory where
  byteAt : UInt32 → Option UInt8

namespace Memory

/-- No address can be read. -/
def empty : Memory :=
  ⟨fun _ => none⟩

/-- Bytes from address zero on. -/
def ofBytes (bytes : Array UInt8) : Memory :=
  ⟨fun a => bytes[a.toNat]?⟩

/-- Memory with a block of bytes laid over it. The block goes on at address zero after the last
address. -/
def overlay (m : Memory) (start : UInt32) (bytes : Array UInt8) : Memory :=
  ⟨fun a => bytes[(a - start).toNat]?.or (m.byteAt a)⟩

/-- The readable bytes from an address on, up to a count and up to the first gap. The address after
the last one is zero. -/
def readRun (m : Memory) : UInt32 → Nat → List UInt8
  | _, 0 => []
  | a, count + 1 =>
    match m.byteAt a with
    | none => []
    | some b => b :: m.readRun (a + 1) count

end Memory

/-- A block of code loaded at an address. -/
structure Image where
  origin : UInt32 := 0
  bytes : Array UInt8 := #[]

namespace Image

/-- What an image holds at an address; it does not go on at address zero. -/
def byteAt (i : Image) (a : UInt32) : Option UInt8 :=
  if i.origin ≤ a then i.bytes[(a - i.origin).toNat]? else none

def memory (i : Image) : Memory :=
  ⟨i.byteAt⟩

/-- The address after the last byte, or the last address if that is smaller. -/
def limit (i : Image) : UInt32 :=
  UInt32.ofNat (min (i.origin.toNat + i.bytes.size) (UInt32.size - 1))

/-- The address lies between the origin and the limit. -/
def contains (i : Image) (a : UInt32) : Bool :=
  i.origin ≤ a && a < i.limit

end Image

end X86Disassembly
