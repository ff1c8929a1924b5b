import X86Disassembly.Memory

/-!
# Byte sources

Decoding pulls bytes from a source, some at a time. A source may fail at any request, and decides
itself where a failed request leaves it.
-/

namespace X86Disassembly

/-- States that bytes can be pulled from. -/
class ByteSource (σ : Type) where
  /-- The next bytes, or nothing if not all of them are there, and the state after the request. -/
  fetch : (count : Nat) → σ → Option (Vector UInt8 count) × σ

/-- A position in a list of bytes. -/
structure ByteCursor where
  position : Nat := 0
  remaining : List UInt8
  deriving DecidableEq

namespace ByteCursor

/-- The next bytes. The cursor does not move unless all of them are there. -/
def fetch (count : Nat) (c : ByteCursor) : Option (Vector UInt8 count) × ByteCursor :=
  if h : (c.remaining.take count).length = count then
    (some ⟨⟨c.remaining.take count⟩, h⟩, ⟨c.position + count, c.remaining.drop count⟩)
  else (none, c)

instance : ByteSource ByteCursor := ⟨fetch⟩

end ByteCursor

/-- A position in memory. -/
structure MemoryCursor where
  memory : Memory
  address : UInt32

namespace MemoryCursor

/-- The next bytes, read one by one. The cursor stops at the first one that cannot be read. -/
def fetch : (count : Nat) → MemoryCursor → Option (Vector UInt8 count) × MemoryCursor
  | 0, c => (some #v[], c)
  | count + 1, c =>
    match c.memory.byteAt c.address with
    | none => (none, c)
    | some b =>
      match fetch count { c with address := c.address + 1 } with
      | (none, c) => (none, c)
      | (some rest, c) => (some ⟨⟨b :: rest.toList⟩, by simp⟩, c)

instance : ByteSource MemoryCursor := ⟨fetch⟩

end MemoryCursor

end X86Disassembly
