import X86Disassembly.Opcode.OneByte
import X86Disassembly.Opcode.TwoByte

/-!
# Decoding modes

A mode is the processor whose opcode map is followed, and the sizes in force before any prefix.
-/

namespace X86Disassembly

/-- The processor whose opcode map is followed. -/
inductive Processor
  | i8086
  | i386
  deriving DecidableEq

namespace Processor

def name : Processor → String
  | i8086 => "Intel8086"
  | i386 => "Intel386"

/-- The meaning of each first byte. -/
def leads : Processor → Vector Lead 256
  | i8086 => OneByte.map8086
  | i386 => OneByte.map386

/-- The meaning of a first byte. -/
def lead (p : Processor) (byte : UInt8) : Lead :=
  p.leads.get byte.toFin

/-- The prefix a first byte stands for, if it is one. -/
def modifier? (p : Processor) (byte : UInt8) : Option Prefix :=
  match p.lead byte with
  | .modifier m => some m
  | _ => none

/-- How many segment registers the `reg` field can name. -/
def segmentRegisters : Processor → Nat
  | i8086 => 4
  | i386 => 6

end Processor

/-- The meaning of the byte after an escape. -/
def TwoByte.entry (byte : UInt8) : Entry :=
  TwoByte.map.get byte.toFin

/-- A decoding mode. Any combination of a processor and two sizes is one. -/
structure Mode where
  processor : Processor
  operandSize : OperandSize
  addressSize : AddressSize
  deriving DecidableEq

namespace Mode

/-- Code of the 386 in a 16-bit segment. -/
def real : Mode :=
  ⟨.i386, .bits16, .bits16⟩

/-- Code of the 386 in a 32-bit segment. -/
def flat : Mode :=
  ⟨.i386, .bits32, .bits32⟩

/-- Code of the 8086. -/
def i8086 : Mode :=
  ⟨.i8086, .bits16, .bits16⟩

/-- The mode for code of a given width; the 8086 has 16-bit code only. -/
def ofBits? : Processor → Nat → Option Mode
  | .i8086, 16 => some i8086
  | .i386, 16 => some real
  | .i386, 32 => some flat
  | _, _ => none

end Mode

end X86Disassembly
