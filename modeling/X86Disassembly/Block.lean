import X86Disassembly.Decode

/-!
# Walking a block of code

A block is decoded from its first byte to its last. Where no instruction can be decoded, the walk
goes on with the next byte.
-/

namespace X86Disassembly

namespace Block

/-- One place of a walk. -/
structure Step where
  offset : Nat
  /-- The bytes of the block from this place on. -/
  rest : List UInt8
  outcome : Outcome

/-- The places of a walk, after passing over `skip` bytes. -/
def stepsFrom (mode : Mode) (start : UInt32) : List UInt8 → Nat → Nat → List Step
  | [], _, _ => []
  | _ :: bytes, offset, skip + 1 => stepsFrom mode start bytes (offset + 1) skip
  | b :: bytes, offset, 0 =>
    let outcome := decode mode (b :: bytes) (start + UInt32.ofNat offset)
    ⟨offset, b :: bytes, outcome⟩ :: stepsFrom mode start bytes (offset + 1) (outcome.span - 1)

/-- The places of a walk over a block that is loaded at an address. -/
def steps (mode : Mode) (bytes : List UInt8) (start : UInt32) : List Step :=
  stepsFrom mode start bytes 0 0

end Block

/-- Decode a whole block of code that is loaded at an address. -/
def disassemble (mode : Mode) (bytes : List UInt8) (start : UInt32) : List Outcome :=
  (Block.steps mode bytes start).map (·.outcome)

end X86Disassembly
