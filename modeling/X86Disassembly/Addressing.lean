import X86Disassembly.ModRM
import X86Disassembly.Segment
import X86Disassembly.Size

/-!
# Addressing forms

What a ModRM byte says about its register-or-memory operand. Base and index registers are held by
number; registers 3, 5, 6 and 7 are `bx`, `bp`, `si` and `di`.
-/

namespace X86Disassembly

/-- How many bytes of displacement a form has. -/
inductive Displacement
  | none
  | byte
  | word
  | dword
  deriving DecidableEq

def Displacement.bytes : Displacement → Nat
  | none => 0
  | byte => 1
  | word => 2
  | dword => 4

/-- The register-or-memory operand that a ModRM byte selects. -/
inductive Addressing
  /-- A register, no memory. -/
  | register (id : Fin 8)
  /-- A displacement alone. -/
  | direct (displacement : Displacement)
  | based (base : Fin 8) (displacement : Displacement)
  | basedIndexed (base index : Fin 8) (displacement : Displacement)
  /-- Base and index are in a SIB byte; the displacement is the one of a form with a base. -/
  | scaled (displacement : Displacement)
  deriving DecidableEq

namespace Addressing

/-- The 16-bit forms: eight fixed sums of base and index registers. -/
def of16 (mode : Fin 4) (rm : Fin 8) : Addressing :=
  match mode, rm with
  | 3, r => register r
  | 0, 6 => direct .word
  | m, r =>
    let d : Displacement := if m = 0 then .none else if m = 1 then .byte else .word
    match r with
    | 0 => basedIndexed 3 6 d
    | 1 => basedIndexed 3 7 d
    | 2 => basedIndexed 5 6 d
    | 3 => basedIndexed 5 7 d
    | 4 => based 6 d
    | 5 => based 7 d
    | 6 => based 5 d
    | 7 => based 3 d

/-- The 32-bit forms: any register as base, with number 4 given to the SIB byte. -/
def of32 (mode : Fin 4) (rm : Fin 8) : Addressing :=
  match mode, rm with
  | 3, r => register r
  | 0, 5 => direct .dword
  | m, r =>
    let d : Displacement := if m = 0 then .none else if m = 1 then .byte else .dword
    if r = 4 then scaled d else based r d

/-- The form a ModRM byte selects at an address size. -/
def ofModRM (size : AddressSize) (m : ModRM) : Addressing :=
  match size with
  | .bits16 => of16 m.mode m.rm
  | .bits32 => of32 m.mode m.rm

/-- The displacement of a form; with a SIB byte that of a form with a base. -/
def displacement : Addressing → Displacement
  | register _ => .none
  | direct d | based _ d | basedIndexed _ _ d | scaled d => d

/-- Memory under `bp` or `ebp` is on the stack, all other memory in the data segment. -/
def baseSegment (base : Fin 8) : Segment :=
  if base = 5 then .ss else .ds

/-- The segment of a form unless a prefix names another. -/
def defaultSegment : Addressing → Segment
  | based b _ | basedIndexed b _ _ => baseSegment b
  | register _ | direct _ | scaled _ => .ds

end Addressing

/-- The displacement that follows a SIB byte: four bytes where the base is left out. -/
def Sib.displacement (s : Sib) (mode : Fin 4) (d : Displacement) : Displacement :=
  if s.hasBase mode then d else .dword

/-- The segment of a form with a SIB byte unless a prefix names another. -/
def Sib.defaultSegment (s : Sib) (mode : Fin 4) : Segment :=
  if s.hasBase mode then Addressing.baseSegment s.base else .ds

end X86Disassembly
