import Mathlib.Data.List.DropRight
import X86Disassembly.Proofs.BoundarySearch

/-!
# Chains of boundaries

The instructions before a target are found one after another, each from the start of the one found
before it. A search for more of them therefore finds the same ones first and goes on from there, and
a search that finds fewer than it was asked for has come to a start that nothing precedes.
-/

namespace X86Disassembly

namespace Boundary

variable {mode : Mode} {memory : Memory} {lookback : Lookback} {target : UInt32}

lemma before_of_le {count : Nat} (h : count ≤ startLayout.capacity) :
    before mode memory lookback target count = .ok (chain mode memory lookback target count) := by
  rw [before, Layout.reserve_of_le h]
  rfl

lemma before_of_lt {count : Nat} (h : startLayout.capacity < count) :
    before mode memory lookback target count = .error .capacityOverflow := by
  rw [before, Layout.reserve_of_lt h]
  rfl

end Boundary

end X86Disassembly
