import X86Disassembly.Text.Hex

/-!
# Segment registers
-/

namespace X86Disassembly

/-- The segment registers, in the order of their encoding. -/
inductive Segment
  | es
  | cs
  | ss
  | ds
  | fs
  | gs
  deriving DecidableEq

namespace Segment

def name : Segment → String
  | es => "es"
  | cs => "cs"
  | ss => "ss"
  | ds => "ds"
  | fs => "fs"
  | gs => "gs"

/-- The segment register with a number, if there is one. -/
def ofIndex? : Nat → Option Segment
  | 0 => some es
  | 1 => some cs
  | 2 => some ss
  | 3 => some ds
  | 4 => some fs
  | 5 => some gs
  | _ => none

end Segment

/-- No segment register has this number. -/
structure InvalidSegment where
  index : Nat
  deriving DecidableEq

def InvalidSegment.message (e : InvalidSegment) : String :=
  "invalid segment register index: " ++ Text.decimal e.index

/-- The segment register with a number, or that there is none. -/
def Segment.ofIndex (index : Nat) : Except InvalidSegment Segment :=
  match Segment.ofIndex? index with
  | some s => .ok s
  | none => .error ⟨index⟩

end X86Disassembly
