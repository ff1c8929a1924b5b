import X86Disassembly.Instruction
import X86Disassembly.LittleEndian
import X86Disassembly.Proofs.OpcodeForms

/-!
# The encoding of instructions

The bytes of an instruction are prefixes, an opcode, and then, as far as the form calls for them, a
ModRM byte, a SIB byte, a displacement and one or two immediates. An `Encoding` is a choice of these
parts with the widths that belong to them. It has bytes, and it has the instruction that they stand
for; neither is defined by reading.
-/

namespace X86Disassembly

lemma OperandSize.immediateBytes_le (s : OperandSize) : s.immediateBytes ≤ 4 := by
  cases s <;> decide

lemma AddressSize.bytes_le (s : AddressSize) : s.bytes ≤ 4 := by
  cases s <;> decide

namespace ModRM

/-- A SIB byte follows, if there is a register-or-memory operand. -/
def hasSib (m : ModRM) (size : AddressSize) : Bool :=
  size == .bits32 && m.mode != 3 && m.rm == 4

/-- Bytes of the displacement of a register-or-memory operand. -/
def displacementBytes (m : ModRM) (size : AddressSize) (sib : Sib) : Nat :=
  match size, m.mode with
  | _, 3 => 0
  | _, 1 => 1
  | .bits16, 2 => 2
  | .bits32, 2 => 4
  | .bits16, _ => if m.rm = 6 then 2 else 0
  | .bits32, _ => if m.rm = 5 ∨ m.rm = 4 ∧ sib.base = 5 then 4 else 0

/-- The operand is memory whose base register is `bp` or `ebp`. -/
def basedOnFrame (m : ModRM) (size : AddressSize) (sib : Sib) : Bool :=
  match size, m.mode with
  | _, 3 => false
  | .bits16, 0 => m.rm == 2 || m.rm == 3
  | .bits16, _ => m.rm == 2 || m.rm == 3 || m.rm == 6
  | .bits32, 0 => false
  | .bits32, _ => m.rm == 5 || m.rm == 4 && sib.base == 5

lemma displacementBytes_le (m : ModRM) (size : AddressSize) (sib : Sib) :
    m.displacementBytes size sib ≤ 4 := by
  unfold displacementBytes
  split
  · decide
  · decide
  · decide
  · decide
  · split <;> decide
  · split <;> decide

lemma empty_of_isRegister {m : ModRM} (h : m.isRegister = true) (size : AddressSize) (sib : Sib) :
    m.hasSib size = false ∧ m.displacementBytes size sib = 0 ∧ m.basedOnFrame size sib = false := by
  have hmode : m.mode = 3 := by simpa [isRegister] using h
  refine ⟨?_, ?_, ?_⟩
  · simp [hasSib, hmode]
  · simp [displacementBytes, hmode]
  · simp [basedOnFrame, hmode]

end ModRM

/-- A part of the code that follows the opcode and the ModRM byte. -/
inductive Part
  | sib
  | displacement
  | immediate
  | immediate2
  deriving DecidableEq

/-- The parts that an operand is read from, in their order. -/
def Source.parts : Source → List Part
  | .rm => [.sib, .displacement]
  | .relative | .absolute => [.displacement]
  | .farPointer => [.displacement, .immediate]
  | .immediate => [.immediate]
  | .immediate2 => [.immediate2]
  | _ => []

/-- A displacement is widened with its sign, an absolute or far offset with zeros. -/
def Source.isSigned : Source → Bool
  | .rm | .relative => true
  | _ => false

/-- Bytes that an operand takes from a part of the code. -/
def Operand.width (o : Operand) (size : AddressSize) (m : ModRM) (sib : Sib) : Part → Nat
  | .sib => if o.source = .rm ∧ m.hasSib size then 1 else 0
  | .displacement =>
    match o.source with
    | .rm => m.displacementBytes size sib
    | .relative | .farPointer => o.size.immediateBytes
    | .absolute => size.bytes
    | _ => 0
  | .immediate =>
    match o.source with
    | .immediate => o.size.immediateBytes
    | .farPointer => 2
    | _ => 0
  | .immediate2 =>
    match o.source with
    | .immediate2 => o.size.immediateBytes
    | _ => 0

namespace Form

/-- The sources of the operands. -/
def sources (f : Form) : List Source :=
  f.operands.toList.map (·.source)

/-- The parts that the operands are read from. -/
def parts (f : Form) : List Part :=
  f.sources.flatMap (·.parts)

/-- The operands at an operand size. -/
def operandsAt (f : Form) (size : OperandSize) : List Operand :=
  (f.operands.map (·.instantiate size)).toList

/-- Bytes that the operands take from a part of the code. -/
def width (f : Form) (operandSize : OperandSize) (size : AddressSize) (m : ModRM) (sib : Sib)
    (part : Part) : Nat :=
  ((f.operandsAt operandSize).map (·.width size m sib part)).sum

end Form

/-- The parts that occur together: no part is read twice, and a displacement is read before an
immediate. -/
def partLists : List (List Part) :=
  [[], [.sib, .displacement], [.sib, .displacement, .immediate], [.displacement],
    [.displacement, .immediate], [.immediate], [.immediate, .immediate2]]

/-- Every form of the maps reads its parts in the order of the code, and reads no part twice. -/
lemma parts_mem_partLists : ∀ f ∈ listedForms, f.parts ∈ partLists := by
  decide +kernel

lemma isSigned_of_mem_listedForms : ∀ f ∈ listedForms, ∀ s ∈ f.sources,
    .displacement ∈ s.parts → s.isSigned = f.sources.any (·.isSigned) := by
  decide +kernel

namespace Prefix

def segment? : Prefix → Option Segment
  | segment s => some s
  | _ => none

def repetition? : Prefix → Option Repetition
  | repetition r => some r
  | _ => none

end Prefix

/-- What a run of prefixes comes to: whether a lock or a size override is among them, and the last
segment and the last repetition. -/
def Prefixes.of (given : List Prefix) : Prefixes where
  lock := given.contains .lock
  repetition := (given.filterMap Prefix.repetition?).getLast?
  segment := (given.filterMap Prefix.segment?).getLast?
  operandSize := given.contains .operandSize
  addressSize := given.contains .addressSize

lemma Prefixes.of_concat (given : List Prefix) (m : Prefix) :
    Prefixes.of (given ++ [m]) = (Prefixes.of given).add m := by
  cases m <;> simp [Prefixes.of, Prefixes.add, Prefix.repetition?, Prefix.segment?]

namespace Mode

def leadingPrefixes (mode : Mode) (b : List UInt8) : List UInt8 :=
  b.takeWhile fun c => (mode.processor.modifier? c).isSome

/-- What prefix bytes come to. -/
def summary (mode : Mode) (prefixes : List UInt8) : Prefixes :=
  .of (prefixes.filterMap mode.processor.modifier?)

/-- The operand size after prefix bytes. -/
def operandSizeAfter (mode : Mode) (prefixes : List UInt8) : OperandSize :=
  if (mode.summary prefixes).operandSize then mode.operandSize.toggled else mode.operandSize

/-- The address size after prefix bytes. -/
def addressSizeAfter (mode : Mode) (prefixes : List UInt8) : AddressSize :=
  if (mode.summary prefixes).addressSize then mode.addressSize.toggled else mode.addressSize

end Mode

/-- The bytes that follow the opcode and the ModRM byte. -/
structure Payload where
  sib : List UInt8 := []
  displacement : List UInt8 := []
  immediate : List UInt8 := []
  immediate2 : List UInt8 := []

namespace Payload

def part (x : Payload) : Part → List UInt8
  | .sib => x.sib
  | .displacement => x.displacement
  | .immediate => x.immediate
  | .immediate2 => x.immediate2

def bytes (x : Payload) : List UInt8 :=
  x.sib ++ x.displacement ++ x.immediate ++ x.immediate2

/-- The SIB byte, or zero when there is none. -/
def sibByte (x : Payload) : UInt8 :=
  x.sib.headD 0

end Payload

/-- The parts of an instruction, each as wide as the parts before it call for. -/
structure Encoding (mode : Mode) where
  prefixes : List UInt8
  opcode : List UInt8
  entry : Entry
  modrm : List UInt8
  form : Form
  payload : Payload
  isSome_modifier? : ∀ b ∈ prefixes, (mode.processor.modifier? b).isSome
  lookup?_opcode : mode.processor.lookup? opcode = some entry
  length_modrm : modrm.length = if entry.hasModRM then 1 else 0
  form?_entry : entry.form? (modrm.headD 0) = some form
  /-- A segment register in the `reg` field is one that the processor has. -/
  reg_lt : .regSegment ∈ form.sources →
    (ModRM.ofByte (modrm.headD 0)).reg.val < mode.processor.segmentRegisters
  length_part : ∀ part, (payload.part part).length =
    form.width (mode.operandSizeAfter prefixes) (mode.addressSizeAfter prefixes)
      (ModRM.ofByte (modrm.headD 0)) (Sib.ofByte payload.sibByte) part

namespace Encoding

variable {mode : Mode}

/-- The ModRM byte, or zero when there is none. -/
def modrmByte (e : Encoding mode) : UInt8 :=
  e.modrm.headD 0

def bytes (e : Encoding mode) : List UInt8 :=
  e.prefixes ++ e.opcode ++ e.modrm ++ e.payload.bytes

/-- The register-or-memory operand is memory on the stack. -/
def onStack (e : Encoding mode) : Bool :=
  e.form.sources.contains .rm &&
    (ModRM.ofByte e.modrmByte).basedOnFrame (mode.addressSizeAfter e.prefixes)
      (Sib.ofByte e.payload.sibByte)

/-- The fields that the parts stand for. -/
def fields (e : Encoding mode) : Fields where
  operandSize := mode.operandSizeAfter e.prefixes
  addressSize := mode.addressSizeAfter e.prefixes
  segment := (mode.summary e.prefixes).segment.getD (if e.onStack then .ss else .ds)
  segmentOverride := (mode.summary e.prefixes).segment
  lock := (mode.summary e.prefixes).lock
  repetition := (mode.summary e.prefixes).repetition
  modrmByte := e.modrmByte
  sibByte := e.payload.sibByte
  rmIsRegister := e.form.sources.contains .rmRegister ||
    e.form.sources.contains .rm && (ModRM.ofByte e.modrmByte).isRegister
  displacement :=
    if e.form.sources.any (·.isSigned) then LittleEndian.signExtended e.payload.displacement
    else LittleEndian.zeroExtended e.payload.displacement
  immediate := LittleEndian.zeroExtended e.payload.immediate
  immediate2 := LittleEndian.zeroExtended e.payload.immediate2

/-- The body that the parts stand for. -/
def body (e : Encoding mode) : Body where
  operation := e.form.operation
  operands := e.form.operands.map (·.instantiate (mode.operandSizeAfter e.prefixes))
  fields := e.fields

/-- The instruction that the parts stand for, at an address. -/
def instruction (e : Encoding mode) (address : UInt32) : Instruction where
  toBody := e.body
  address := address
  length := e.bytes.length

end Encoding

end X86Disassembly
