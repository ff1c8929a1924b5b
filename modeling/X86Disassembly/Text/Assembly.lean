import X86Disassembly.Text.MemoryExpression

/-!
# Assembly text

An instruction prints as prefixes, mnemonic and operands. All of it comes from the instruction; its
bytes are not looked at again.
-/

namespace X86Disassembly

/-- A memory operand: its width, its segment and an expression in brackets. -/
def Text.memoryOperand (size : OperandSize) (segment : Segment) (expression : String) : String :=
  size.pointerName ++ " ptr " ++ segment.name ++ ":[" ++ expression ++ "]"

/-- The segment of memory under a string register: `es` for `di`, whatever the prefixes say. -/
def Fields.stringSegment (f : Fields) (id : UInt8) : Segment :=
  if id = 7 then .es else f.segment

namespace Instruction

/-- The address a branch leads to. -/
def branchTarget (i : Instruction) : UInt32 :=
  i.nextAddress + i.fields.displacement

/-- Bytes of a branch target that are printed. -/
def branchTargetBytes (i : Instruction) : Nat :=
  if i.fields.operandSize = .bits16 then 2 else 4

def operandText (i : Instruction) (o : Operand) : String :=
  let f := i.fields
  let reg := f.modrm.reg.val
  match o.source with
  | .unused | .condition _ => ""
  | .constant value => Text.hexConstant o.size.immediateBytes value
  | .immediate => Text.hexConstant o.size.immediateBytes f.immediate
  | .immediate2 => Text.hexConstant o.size.immediateBytes f.immediate2
  | .register id => Register.name o.size id.toNat
  | .segment s => s.name
  | .stringPointer id =>
    Text.memoryOperand o.size (f.stringSegment id) (Register.addressName f.addressSize id.toNat)
  | .relative => Text.hexConstant i.branchTargetBytes i.branchTarget
  | .absolute =>
    Text.memoryOperand o.size f.segment (Text.hexConstant f.addressSize.bytes f.displacement)
  | .farPointer =>
    Text.fixed .lower 4 f.immediate.toNat ++ ":"
      ++ Text.hexConstant o.size.immediateBytes f.displacement
  | .reg => Register.name o.size reg
  | .rm =>
    if f.rmIsRegister then Register.name o.size f.modrm.rm
    else Text.memoryOperand o.size f.segment (MemoryExpression.ofFields f o.size).text
  | .rmRegister => Register.name o.size f.modrm.rm
  | .regSegment => ((Segment.ofIndex? reg).map Segment.name).getD "<invalid>"
  | .regControl => "cr" ++ Text.decimal reg
  | .regDebug => "dr" ++ Text.decimal reg
  | .regTest => "tr" ++ Text.decimal reg
  | .stack index => "st(" ++ Text.decimal index.toNat ++ ")"

/-- The words before the mnemonic. -/
def prefixText (i : Instruction) : String :=
  (if i.fields.lock then "lock " else "")
    ++ match i.fields.repetition with
      | none => ""
      | some r =>
        if i.operation.isStringCompare then
          match r with
          | .rep => "repe "
          | .repne => "repne "
        else "rep "

/-- The width of a string element: that of the memory operand if there is one. -/
def elementSize (i : Instruction) : OperandSize :=
  let isPointer (o : Operand) : Bool :=
    match o.source with
    | .stringPointer _ => true
    | _ => false
  ((i.operands.toList.find? isPointer).map (·.size)).getD i.fields.operandSize

/-- The letters by which the first operand completes the mnemonic, if it does. -/
def foldedOperand (i : Instruction) : Option String :=
  match i.operands.first.source with
  | .condition c =>
    some (if c = .cxZero ∧ i.fields.addressSize = .bits32 then "ecxz" else c.suffix)
  | .segment s => if i.operation = .loadFar then some s.name else none
  | _ => none

def mnemonicText (i : Instruction) : String :=
  i.operation.mnemonic
    ++ (if i.operation.isString then i.elementSize.stringSuffix else "")
    ++ i.foldedOperand.getD ""

/-- The operands that are printed after the mnemonic. -/
def printedOperands (i : Instruction) : List Operand :=
  (if i.foldedOperand.isSome then i.operands.toList.tail else i.operands.toList).filter
    (·.isUsed)

def operandsText (i : Instruction) : String :=
  match i.printedOperands with
  | [] => ""
  | operands => " " ++ ", ".intercalate (operands.map i.operandText)

def text (i : Instruction) : String :=
  i.prefixText ++ i.mnemonicText ++ i.operandsText

end Instruction

end X86Disassembly
