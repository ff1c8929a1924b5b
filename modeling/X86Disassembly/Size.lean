/-!
# Operand and address sizes

The width of an operand decides how many bytes of it follow the opcode, how its registers are
named and how many digits its numbers print. The width of an address decides the addressing
forms. Each has a default per decoding mode, and a prefix byte turns it into the other one.
-/

namespace X86Disassembly

/-- Width of an operand. -/
inductive OperandSize
  | bits8
  | bits16
  | bits32
  | bits64
  | bits80
  deriving DecidableEq

/-- Width of an effective address. -/
inductive AddressSize
  | bits16
  | bits32
  deriving DecidableEq

namespace OperandSize

def bits : OperandSize → Nat
  | bits8 => 8
  | bits16 => 16
  | bits32 => 32
  | bits64 => 64
  | bits80 => 80

/-- The word before `ptr` in a memory operand. -/
def pointerName : OperandSize → String
  | bits8 => "byte"
  | bits16 => "word"
  | bits32 => "dword"
  | bits64 => "qword"
  | bits80 => "tword"

/-- The letter a string instruction adds to its mnemonic. -/
def stringSuffix : OperandSize → String
  | bits8 => "b"
  | bits16 => "w"
  | _ => "d"

/-- The size under an operand-size prefix: 32 bits in 16-bit code, 16 bits in any other. -/
def toggled : OperandSize → OperandSize
  | bits16 => bits32
  | _ => bits16

/-- Bytes an immediate of this size takes in the code: never more than four. -/
def immediateBytes : OperandSize → Nat
  | bits8 => 1
  | bits16 => 2
  | _ => 4

end OperandSize

namespace AddressSize

def bits : AddressSize → Nat
  | bits16 => 16
  | bits32 => 32

/-- The size under an address-size prefix. -/
def toggled : AddressSize → AddressSize
  | bits16 => bits32
  | bits32 => bits16

/-- Bytes of an absolute offset of this size. -/
def bytes : AddressSize → Nat
  | bits16 => 2
  | bits32 => 4

end AddressSize

end X86Disassembly
