import X86Disassembly.Addressing
import X86Disassembly.Fetch
import X86Disassembly.Instruction
import X86Disassembly.Mode

/-!
# Decoding

An instruction is read in this order: prefixes, opcode, ModRM byte, and then for each operand what
it needs of SIB byte, displacement and immediates. `Decode.readBody` is the plan for it in a mode;
`decode`, `decodeAt` and `decodeFrom` run the plan on a list of bytes, on memory and on any source.
-/

namespace X86Disassembly

namespace Decode

/-- Read prefixes and the opcode after them, within a number of bytes. -/
def readOpcode (p : Processor) : Nat → Prefixes → Fetch (Prefixes × Entry)
  | 0, _ => .overlong
  | room + 1, seen => do
    match p.lead (← .byte) with
    | .modifier m => readOpcode p room (seen.add m)
    | .escape => return (seen, TwoByte.entry (← .byte))
    | .opcode e => return (seen, e)

/-- The form in a row of a group. -/
def listed : Option Form → Fetch Form
  | none => .undefined
  | some f => .done f

/-- Settle the form of an opcode, and read its ModRM byte if it has one; zero stands for none. -/
def readForm : Entry → Fetch (Form × UInt8)
  | .undefined => .undefined
  | .form f => do
    if f.usesModRM then return (f, ← .byte) else return (f, 0)
  | .group rows => do
    let b ← .byte
    return (← listed (rows.get (ModRM.ofByte b).reg), b)
  | .coprocessor rows => do
    let b ← .byte
    return (← listed (rows.get (ModRM.ofByte b).escapeRow), b)

/-- The fields before any operand is read. -/
def startFields (mode : Mode) (seen : Prefixes) (modrm : UInt8) : Fields where
  operandSize := if seen.operandSize then mode.operandSize.toggled else mode.operandSize
  addressSize := if seen.addressSize then mode.addressSize.toggled else mode.addressSize
  segment := seen.segment.getD .ds
  segmentOverride := seen.segment
  lock := seen.lock
  repetition := seen.repetition
  modrmByte := modrm

def readDisplacement (f : Fields) : Displacement → Fetch Fields
  | .none => return { f with displacement := 0 }
  | d => do return { f with displacement := ← .signed d.bytes }

/-- Read what follows the ModRM byte for a register-or-memory operand. -/
def readRegisterOrMemory (f : Fields) : Fetch Fields :=
  match Addressing.ofModRM f.addressSize f.modrm with
  | .register _ => return { f with rmIsRegister := true }
  | .scaled d => do
    let b ← .byte
    let sib := Sib.ofByte b
    let segment := f.segmentOverride.getD (sib.defaultSegment f.modrm.mode)
    readDisplacement { f with sibByte := b, segment } (sib.displacement f.modrm.mode d)
  | a =>
    readDisplacement { f with segment := f.segmentOverride.getD a.defaultSegment } a.displacement

/-- Read what an operand takes from the code. -/
def readOperand (p : Processor) (f : Fields) (o : Operand) : Fetch Fields :=
  match o.source with
  | .regSegment => if f.modrm.reg.val < p.segmentRegisters then return f else .undefined
  | .rm => readRegisterOrMemory f
  | .rmRegister => return { f with rmIsRegister := true }
  | .immediate => do return { f with immediate := ← .unsigned o.size.immediateBytes }
  | .immediate2 => do return { f with immediate2 := ← .unsigned o.size.immediateBytes }
  | .relative => do return { f with displacement := ← .signed o.size.immediateBytes }
  | .absolute => do return { f with displacement := ← .unsigned f.addressSize.bytes }
  | .farPointer => do
    let offset ← .unsigned o.size.immediateBytes
    return { f with displacement := offset, immediate := ← .unsigned 2 }
  | _ => return f

/-- Read one instruction. -/
def readBody (mode : Mode) : Fetch Body := do
  let (seen, entry) ← readOpcode mode.processor maxLength {}
  let (form, modrm) ← readForm entry
  let start := startFields mode seen modrm
  let operands := form.operands.map (·.instantiate start.operandSize)
  let fields ← operands.toList.foldlM (readOperand mode.processor) start
  return ⟨form.operation, operands, fields⟩

end Decode

/-- What decoding at one place gives. -/
abbrev Outcome := Except DecodeError Instruction

/-- Bytes that a walk moves on by: the whole instruction, or one byte where there is none. -/
def Outcome.span : Outcome → Nat
  | .ok i => i.length
  | .error _ => 1

/-- Decode one instruction from a source. The address is only recorded. -/
def decodeFrom {σ : Type} [ByteSource σ] (mode : Mode) (source : σ) (address : UInt32) :
    Outcome × σ :=
  match (Decode.readBody mode).run ⟨source, []⟩ with
  | (.ok body, tape) =>
    (.ok { toBody := body, address, length := tape.taken.length }, tape.source)
  | (.error fault, tape) => (.error ⟨address, fault⟩, tape.source)

/-- Decode the instruction that a list of bytes starts with. -/
def decode (mode : Mode) (bytes : List UInt8) (address : UInt32) : Outcome :=
  (decodeFrom mode { remaining := bytes : ByteCursor } address).1

/-- Decode the instruction at an address of memory. -/
def decodeAt (mode : Mode) (memory : Memory) (address : UInt32) : Outcome :=
  (decodeFrom mode (MemoryCursor.mk memory address) address).1

end X86Disassembly
