import X86Disassembly.Size

/-!
# Register names

A register is a number; the width it is read at picks its name.
-/

namespace X86Disassembly.Register

def byteNames : List String :=
  ["al", "cl", "dl", "bl", "ah", "ch", "dh", "bh"]

def wordNames : List String :=
  ["ax", "cx", "dx", "bx", "sp", "bp", "si", "di"]

/-- The 32-bit names go on with the instruction pointer, flags, control, debug and test
registers. -/
def dwordNames : List String :=
  ["eax", "ecx", "edx", "ebx", "esp", "ebp", "esi", "edi", "eip", "eflags",
    "cr0", "cr2", "cr3", "cr4", "dr0", "dr1", "dr2", "dr3", "dr4", "dr5", "dr6", "dr7",
    "tr3", "tr4", "tr5", "tr6", "tr7"]

/-- The name with a given number; `?` where the list has none. -/
def pick (names : List String) (id : Nat) : String :=
  names[id]?.getD "?"

/-- The name of a register at an operand size. Sizes above 32 bits use the 32-bit names. -/
def name (size : OperandSize) (id : Nat) : String :=
  match size with
  | .bits8 => pick byteNames id
  | .bits16 => pick wordNames id
  | _ => pick dwordNames id

/-- The name of a base or index register at an address size. -/
def addressName (size : AddressSize) (id : Nat) : String :=
  match size with
  | .bits16 => pick wordNames id
  | .bits32 => pick dwordNames id

end X86Disassembly.Register
