/-!
# Room for lists

A list of at most so many values gets its room before the first of them is known. Room is counted in
bytes, on a machine whose addresses have 64 bits: nothing larger than half of them can be asked for.
Whether the machine has the room that it is asked for does not depend on the command, and is taken
for granted.
-/

namespace X86Disassembly

/-- What breaks off a run. -/
inductive Panic
  | capacityOverflow
  deriving DecidableEq

def Panic.message : Panic → String
  | capacityOverflow => "capacity overflow"

/-- The bytes that a value takes in a list. -/
structure Layout where
  size : Nat
  alignment : Nat

namespace Layout

/-- The most values that room can be asked for. -/
def capacity (l : Layout) : Nat :=
  (UInt64.size / 2 - l.alignment) / l.size

/-- Ask for room for some values. -/
def reserve (l : Layout) (count : Nat) : Except Panic Unit :=
  if count ≤ l.capacity then .ok () else .error .capacityOverflow

variable {l : Layout} {count : Nat}

theorem reserve_of_le (h : count ≤ l.capacity) : l.reserve count = .ok () :=
  if_pos h

theorem reserve_of_lt (h : l.capacity < count) : l.reserve count = .error .capacityOverflow :=
  if_neg (Nat.not_le.mpr h)

end Layout

end X86Disassembly
