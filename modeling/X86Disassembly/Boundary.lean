import X86Disassembly.Allocation
import X86Disassembly.Decode

/-!
# Finding instructions backwards

Code does not say where an instruction before an address starts. Each nearby address is tried, the
nearest first, and the first one whose instruction ends at the address is taken for the start,
whether or not it was meant.
-/

namespace X86Disassembly

/-- How far back a start is looked for. -/
structure Lookback where
  distance : Nat
  one_le : 1 ≤ distance
  le_maxLength : distance ≤ maxLength

namespace Lookback

/-- The nearest allowed distance. -/
def clamp (n : Nat) : Lookback where
  distance := max 1 (min n maxLength)
  one_le := Nat.le_max_left ..
  le_maxLength := Nat.max_le.2 ⟨by decide, Nat.min_le_right ..⟩

/-- As far as an instruction can be long. -/
def longest : Lookback where
  distance := maxLength
  one_le := by decide
  le_maxLength := Nat.le_refl _

end Lookback

namespace Boundary

/-- The addresses tried before a target, nearest first. None lies below address zero. -/
def candidates (lookback : Lookback) (target : UInt32) : List UInt32 :=
  (List.range (min lookback.distance target.toNat)).map fun d => target - UInt32.ofNat (d + 1)

/-- The instruction at `start` ends where `target` begins. -/
def endsAt (mode : Mode) (memory : Memory) (target start : UInt32) : Bool :=
  match decodeAt mode memory start with
  | .ok i => start.toNat + i.length == target.toNat
  | .error _ => false

/-- The start of the instruction before a target. -/
def previous (mode : Mode) (memory : Memory) (lookback : Lookback) (target : UInt32) :
    Option UInt32 :=
  (candidates lookback target).find? (endsAt mode memory target)

/-- The starts of up to `count` instructions before a target, in the order of their addresses. Each
one is looked for from the start of the one found before it. -/
def chain (mode : Mode) (memory : Memory) (lookback : Lookback) (target : UInt32) :
    (count : Nat) → List UInt32
  | 0 => []
  | count + 1 =>
    match previous mode memory lookback target with
    | none => []
    | some start => chain mode memory lookback start count ++ [start]

/-- An address among others. -/
def startLayout : Layout where
  size := 4
  alignment := 4

/-- Look for up to `count` instructions before a target. Room for all of their starts is asked for
before the search. -/
def before (mode : Mode) (memory : Memory) (lookback : Lookback) (target : UInt32) (count : Nat) :
    Except Panic (List UInt32) := do
  startLayout.reserve count
  return chain mode memory lookback target count

end Boundary

end X86Disassembly
