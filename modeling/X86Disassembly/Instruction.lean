import X86Disassembly.ModRM
import X86Disassembly.Operand
import X86Disassembly.Operation
import X86Disassembly.Prefix

/-!
# Instructions

A `Body` is all that the bytes of an instruction say; an `Instruction` is a body with its place in
memory.
-/

namespace X86Disassembly

/-- The prefixes in force and the values an instruction carries. -/
structure Fields where
  operandSize : OperandSize := .bits16
  addressSize : AddressSize := .bits16
  /-- The segment of memory operands. -/
  segment : Segment := .ds
  /-- The segment named by a prefix. -/
  segmentOverride : Option Segment := none
  lock : Bool := false
  repetition : Option Repetition := none
  /-- Zero when there is no ModRM byte. -/
  modrmByte : UInt8 := 0
  /-- Zero when there is no SIB byte. -/
  sibByte : UInt8 := 0
  /-- The `rm` field names a register. -/
  rmIsRegister : Bool := false
  /-- A displacement or branch distance, widened with its sign; or an absolute or far offset. -/
  displacement : UInt32 := 0
  immediate : UInt32 := 0
  immediate2 : UInt32 := 0
  deriving DecidableEq

namespace Fields

def modrm (f : Fields) : ModRM :=
  .ofByte f.modrmByte

def sib (f : Fields) : Sib :=
  .ofByte f.sibByte

def hasSibBase (f : Fields) : Bool :=
  f.sib.hasBase f.modrm.mode

def hasSibIndex (f : Fields) : Bool :=
  f.sib.hasIndex

/-- The displacement read in two's complement. -/
def signedDisplacement (f : Fields) : Int :=
  f.displacement.toBitVec.toInt

end Fields

/-- An operation with its operands. -/
structure Body where
  operation : Operation
  operands : Slots Operand
  fields : Fields
  deriving DecidableEq

/-- A body at an address, with the number of bytes it takes. -/
structure Instruction extends Body where
  address : UInt32
  length : Nat
  deriving DecidableEq

namespace Instruction

/-- The address of the following byte, on a ring of 2 ^ 32 addresses. -/
def nextAddress (i : Instruction) : UInt32 :=
  i.address + UInt32.ofNat i.length

/-- How many slots hold an operand. -/
def operandCount (i : Instruction) : Nat :=
  i.operands.toList.countP (·.isUsed)

end Instruction

end X86Disassembly
