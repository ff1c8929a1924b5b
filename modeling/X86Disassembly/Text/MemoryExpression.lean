import X86Disassembly.Addressing
import X86Disassembly.Instruction
import X86Disassembly.Register.Name
import X86Disassembly.Text.Hex

/-!
# Memory expressions

What stands between the brackets of a memory operand: a sum of registers, one of them perhaps
multiplied, and a number.
-/

namespace X86Disassembly

/-- A number as hexadecimal digits with a final `h`, two digits for each byte. -/
def Text.hexConstant (bytes : Nat) (value : UInt32) : String :=
  Text.fixed .lower (2 * bytes) value.toNat ++ "h"

namespace MemoryExpression

/-- A register times a power of two, which is held as its exponent. -/
structure Term where
  name : String
  scale : Nat
  deriving DecidableEq

def Term.text (t : Term) : String :=
  if t.scale = 0 then t.name else t.name ++ " * " ++ Text.decimal (1 <<< t.scale)

/-- The number of an expression. -/
inductive Offset
  /-- An address, printed in full. -/
  | absolute (size : AddressSize) (value : UInt32)
  /-- A distance, printed with its sign and left out when zero. -/
  | distance (value : Int)
  deriving DecidableEq

def Offset.text : Offset → String
  | absolute size value => Text.hexConstant size.bytes value
  | distance value =>
    if value = 0 then ""
    else (if value < 0 then " - " else " + ") ++ Text.shortest .lower value.natAbs ++ "h"

end MemoryExpression

/-- The sum that gives an address. -/
structure MemoryExpression where
  terms : List MemoryExpression.Term
  offset : MemoryExpression.Offset
  deriving DecidableEq

namespace MemoryExpression

/-- A base or index register that is not multiplied. -/
def registerTerm (size : AddressSize) (id : Fin 8) : Term :=
  ⟨Register.addressName size id, 0⟩

/-- The displacement of a form with a base. -/
def baseOffset (f : Fields) (d : Displacement) : Offset :=
  .distance (if d = .none then 0 else f.signedDisplacement)

/-- The registers that the SIB byte names. -/
def sibTerms (f : Fields) : List Term :=
  (if f.hasSibBase then [registerTerm .bits32 f.sib.base] else [])
    ++ (if f.hasSibIndex then [⟨Register.addressName .bits32 f.sib.index, f.sib.scale⟩] else [])

/-- The expression for the memory that the ModRM byte selects. A register form, which selects none,
is the register itself. -/
def ofFields (f : Fields) (size : OperandSize) : MemoryExpression :=
  match Addressing.ofModRM f.addressSize f.modrm with
  | .register id => ⟨[⟨Register.name size id, 0⟩], .distance 0⟩
  | .direct _ => ⟨[], .absolute f.addressSize f.displacement⟩
  | .based b d => ⟨[registerTerm f.addressSize b], baseOffset f d⟩
  | .basedIndexed b i d =>
    ⟨[registerTerm f.addressSize b, registerTerm f.addressSize i], baseOffset f d⟩
  | .scaled _ =>
    ⟨sibTerms f,
      if f.hasSibBase || f.hasSibIndex then .distance f.signedDisplacement
      else .absolute .bits32 f.displacement⟩

def text (e : MemoryExpression) : String :=
  " + ".intercalate (e.terms.map Term.text) ++ e.offset.text

end MemoryExpression

end X86Disassembly
