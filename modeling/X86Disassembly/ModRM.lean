/-!
# The ModRM and SIB bytes

A ModRM byte packs an addressing mode with two register numbers, a SIB byte a scale with the
numbers of an index and a base register.
-/

namespace X86Disassembly

-- Numerals of `Fin 4` and `Fin 8`, for the values of a field.
instance neZero_four : @NeZero Nat Zero.ofOfNat0 4 := ⟨by decide⟩

instance neZero_eight : @NeZero Nat Zero.ofOfNat0 8 := ⟨by decide⟩

/-- The fields of a ModRM byte. -/
structure ModRM where
  mode : Fin 4
  reg : Fin 8
  rm : Fin 8
  deriving DecidableEq

namespace ModRM

def ofByte (byte : UInt8) : ModRM where
  mode := Fin.ofNat 4 (byte.toNat / 64)
  reg := Fin.ofNat 8 (byte.toNat / 8)
  rm := Fin.ofNat 8 byte.toNat

/-- Mode 3 selects a register instead of memory. -/
def isRegister (m : ModRM) : Bool :=
  m.mode == 3

/-- The row of a coprocessor escape: eight memory forms by `reg`, then a row for each pair of
`reg` and `rm`. -/
def escapeRow (m : ModRM) : Fin 72 :=
  if m.isRegister then ⟨8 + (8 * m.reg + m.rm), by omega⟩ else ⟨m.reg, by omega⟩

end ModRM

/-- The fields of a SIB byte. The scale is a power of two, held as its exponent. -/
structure Sib where
  scale : Fin 4
  index : Fin 8
  base : Fin 8
  deriving DecidableEq

namespace Sib

def ofByte (byte : UInt8) : Sib where
  scale := Fin.ofNat 4 (byte.toNat / 64)
  index := Fin.ofNat 8 (byte.toNat / 8)
  base := Fin.ofNat 8 byte.toNat

/-- The number the index register is multiplied by. -/
def factor (s : Sib) : Nat :=
  1 <<< s.scale.val

/-- Index 4 means that there is no index register. -/
def hasIndex (s : Sib) : Bool :=
  s.index != 4

/-- Base 5 under mode 0 means that there is no base register. -/
def hasBase (s : Sib) (mode : Fin 4) : Bool :=
  s.base != 5 || mode != 0

end Sib

end X86Disassembly
