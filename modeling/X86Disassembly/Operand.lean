import X86Disassembly.Condition
import X86Disassembly.Segment
import X86Disassembly.Size

/-!
# Operands

An operand says where its value is found and how wide it is. What the opcode fixes is part of the
source; what the instruction carries (immediates, displacements, ModRM fields) is kept once for
the whole instruction and only referred to here.
-/

namespace X86Disassembly

/-- Where the value of an operand is found. -/
inductive Source
  /-- The slot holds no operand. -/
  | unused
  /-- A number fixed by the opcode. -/
  | constant (value : UInt32)
  /-- A register fixed by the opcode. -/
  | register (id : UInt8)
  /-- Memory under a string register. -/
  | stringPointer (id : UInt8)
  | segment (s : Segment)
  | immediate
  /-- The second of two immediates. -/
  | immediate2
  /-- A distance from the next instruction. -/
  | relative
  /-- Memory at an offset given in the instruction. -/
  | absolute
  /-- A selector and an offset, both given in the instruction. -/
  | farPointer
  /-- The register in the `reg` field. -/
  | reg
  /-- The register or the memory that mode and `rm` field select. -/
  | rm
  /-- The register in the `rm` field, whatever the mode is. -/
  | rmRegister
  /-- The segment register in the `reg` field. -/
  | regSegment
  /-- The control register in the `reg` field. -/
  | regControl
  /-- The debug register in the `reg` field. -/
  | regDebug
  /-- The test register in the `reg` field. -/
  | regTest
  /-- A register of the coprocessor stack. -/
  | stack (index : UInt8)
  /-- A condition, which belongs to the mnemonic. -/
  | condition (c : Condition)
  deriving DecidableEq

namespace Source

/-- The operand needs a ModRM byte. -/
def usesModRM : Source → Bool
  | reg | rm | rmRegister | regSegment | regControl | regDebug | regTest => true
  | _ => false

end Source

/-- An operand: a source and the width of the value there. -/
structure Operand where
  source : Source
  size : OperandSize
  deriving DecidableEq

namespace Operand

/-- The slot holds an operand. -/
def isUsed (o : Operand) : Bool :=
  o.source != .unused

end Operand

/-- The three operand slots of an instruction, destination first. -/
structure Slots (α : Type) where
  first : α
  second : α
  third : α
  deriving DecidableEq

namespace Slots

variable {α β : Type}

def toList (s : Slots α) : List α :=
  [s.first, s.second, s.third]

def map (f : α → β) (s : Slots α) : Slots β :=
  ⟨f s.first, f s.second, f s.third⟩

/-- The first three of a list, with a filler for those that are missing. -/
def ofList (filler : α) (l : List α) : Slots α :=
  ⟨l[0]?.getD filler, l[1]?.getD filler, l[2]?.getD filler⟩

end Slots

end X86Disassembly
