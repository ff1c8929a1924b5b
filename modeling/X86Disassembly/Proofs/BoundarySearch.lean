import Mathlib.Data.List.Chain
import Mathlib.Order.Bounds.Defs
import X86Disassembly.Boundary

/-!
# The search for a boundary

The search before a target tries the addresses below it one by one, and finds the nearest of those
that precede the target. Repeated, it gives a chain of instructions without gaps.
-/

namespace X86Disassembly

namespace Boundary

variable {mode : Mode} {memory : Memory} {lookback : Lookback} {target start : UInt32}

/-- An instruction starts below the target, within the lookback, and ends where the target begins.
The ends are compared as numbers: an instruction that goes on at address zero precedes nothing. -/
structure Precedes (mode : Mode) (memory : Memory) (lookback : Lookback)
    (target start : UInt32) : Prop where
  lt : start < target
  near : target.toNat - start.toNat ≤ lookback.distance
  ends : ∃ i, decodeAt mode memory start = .ok i ∧ start.toNat + i.length = target.toNat

lemma endsAt_iff : endsAt mode memory target start = true ↔
    ∃ i, decodeAt mode memory start = .ok i ∧ start.toNat + i.length = target.toNat := by
  unfold endsAt
  cases decodeAt mode memory start with
  | error e => simp
  | ok i => simp

lemma toNat_sub_ofNat {n : Nat} (h : n ≤ target.toNat) :
    (target - UInt32.ofNat n).toNat = target.toNat - n := by
  have hn : (UInt32.ofNat n).toNat = n :=
    UInt32.toNat_ofNat_of_lt' (Nat.lt_of_le_of_lt h target.toNat_lt)
  have hle : UInt32.ofNat n ≤ target := by
    rw [UInt32.le_iff_toNat_le, hn]
    exact h
  rw [UInt32.toNat_sub_of_le _ _ hle, hn]

lemma getElem?_candidates_eq_some_iff {k : Nat} {c : UInt32} :
    (candidates lookback target)[k]? = some c ↔
      k < lookback.distance ∧ c.toNat + (k + 1) = target.toNat := by
  unfold candidates
  rw [List.getElem?_map]
  by_cases hk : k < min lookback.distance target.toNat
  · rw [List.getElem?_range hk, Option.map_some, Option.some_inj, ← UInt32.toNat_inj,
      toNat_sub_ofNat (by omega)]
    omega
  · have hrange : (List.range (min lookback.distance target.toNat)).length ≤ k := by
      rw [List.length_range]
      omega
    rw [List.getElem?_eq_none hrange, Option.map_none]
    constructor
    · intro h
      cases h
    · rintro ⟨hdistance, hsum⟩
      omega

lemma precedes_iff : Precedes mode memory lookback target start ↔
    ∃ k : Nat, (candidates lookback target)[k]? = some start ∧
      endsAt mode memory target start = true := by
  constructor
  · rintro ⟨hlt, hnear, hends⟩
    rw [UInt32.lt_iff_toNat_lt] at hlt
    refine ⟨target.toNat - start.toNat - 1, ?_, endsAt_iff.mpr hends⟩
    rw [getElem?_candidates_eq_some_iff]
    omega
  · rintro ⟨k, hk, hends⟩
    obtain ⟨hdistance, hsum⟩ := getElem?_candidates_eq_some_iff.mp hk
    refine ⟨?_, by omega, endsAt_iff.mp hends⟩
    rw [UInt32.lt_iff_toNat_lt]
    omega

lemma isGreatest_of_previous_eq_some (h : previous mode memory lookback target = some start) :
    IsGreatest {s | Precedes mode memory lookback target s} start := by
  obtain ⟨hends, k, hk, rfl, hbefore⟩ := List.find?_eq_some_iff_getElem.mp h
  have hstart := List.getElem?_eq_getElem hk
  refine ⟨precedes_iff.mpr ⟨k, hstart, hends⟩, ?_⟩
  intro s hs
  obtain ⟨j, hj, hends'⟩ := precedes_iff.mp hs
  -- Anything nearer has been tried before, and does not end at the target.
  have hkj : k ≤ j := by
    by_contra hlt
    have hfails := hbefore j (Nat.lt_of_not_le hlt)
    obtain ⟨hj', rfl⟩ := List.getElem?_eq_some_iff.mp hj
    rw [hends'] at hfails
    cases hfails
  have hsum := (getElem?_candidates_eq_some_iff.mp hstart).2
  have hsum' := (getElem?_candidates_eq_some_iff.mp hj).2
  rw [UInt32.le_iff_toNat_le]
  omega

lemma previous_eq_none_iff : previous mode memory lookback target = none ↔
    ∀ s, ¬Precedes mode memory lookback target s := by
  unfold previous
  rw [List.find?_eq_none]
  constructor
  · intro h s hs
    obtain ⟨k, hk, hends⟩ := precedes_iff.mp hs
    exact h s (List.mem_of_getElem? hk) hends
  · intro h s hs hends
    obtain ⟨k, hk⟩ := List.mem_iff_getElem?.mp hs
    exact h s (precedes_iff.mpr ⟨k, hk, hends⟩)

/-- The search finds exactly the nearest address that precedes the target, and nothing exactly if
there is none. It tries the addresses at distance 1, 2 and so on until the lookback or address zero
is reached, so that it ends and no distance is taken beyond address zero. -/
theorem previous_eq_nearest (mode : Mode) (memory : Memory) (lookback : Lookback)
    (target : UInt32) :
    (∀ s, previous mode memory lookback target = some s ↔
      IsGreatest {s | Precedes mode memory lookback target s} s) ∧
    (previous mode memory lookback target = none ↔
      ∀ s, ¬Precedes mode memory lookback target s) ∧
    previous mode memory lookback 0 = none ∧
    (candidates lookback target).length = min lookback.distance target.toNat ∧
    ∀ (k : Nat) (c : UInt32), (candidates lookback target)[k]? = some c ↔
      k < lookback.distance ∧ c.toNat + (k + 1) = target.toNat := by
  refine ⟨?_, previous_eq_none_iff, ?_, ?_, fun k c => getElem?_candidates_eq_some_iff⟩
  · intro s
    constructor
    · exact isGreatest_of_previous_eq_some
    · intro hs
      cases h : previous mode memory lookback target with
      | none => exact absurd hs.1 (previous_eq_none_iff.mp h s)
      | some t =>
        have ht := isGreatest_of_previous_eq_some h
        rw [UInt32.le_antisymm (hs.2 ht.1) (ht.2 hs.1)]
  · rw [previous_eq_none_iff]
    intro s hs
    exact absurd hs.lt (by simp)
  · simp [candidates]

/-- Of two instructions that end at the target the nearer one is taken. -/
example :
    previous .real (Memory.ofBytes #[0xB8, 0xB0, 0x05, 0xC3]) .longest 3 = some 1 := by
  decide

end Boundary

end X86Disassembly
