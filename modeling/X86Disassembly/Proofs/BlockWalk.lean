import Mathlib.Order.Monotone.Basic
import X86Disassembly.Block
import X86Disassembly.Proofs.Locality

/-!
# Walks over a block

A walk steps over the instruction it finds, or over one byte where it finds none. A step takes at
least one byte and none beyond the block, so that the steps tile the block. Only a truncation
depends on where the block ends: a walk without one is continued by what follows as if that were a
block of its own.
-/

namespace X86Disassembly

/-- The address that an instruction or an error carries. -/
def Outcome.address : Outcome → UInt32
  | .ok i => i.address
  | .error e => e.address

lemma address_decode (mode : Mode) (bytes : List UInt8) (address : UInt32) :
    (decode mode bytes address).address = address := by
  obtain ⟨read, rest, left, result, -, -, -, -, heq⟩ := exists_decode_eq mode bytes address
  rw [heq]
  cases result with
  | ok body => rfl
  | error fault => rfl

lemma one_le_span_decode (mode : Mode) (bytes : List UInt8) (address : UInt32) :
    1 ≤ (decode mode bytes address).span := by
  cases h : decode mode bytes address with
  | error e => exact Nat.le_refl 1
  | ok i =>
    obtain ⟨read, rest, body, -, hread, -, rfl⟩ := decode_eq_ok_iff.mp h
    exact Decode.one_le_length_of_leads hread

lemma span_decode_le {bytes : List UInt8} (hne : bytes ≠ []) (mode : Mode) (address : UInt32) :
    (decode mode bytes address).span ≤ bytes.length := by
  cases h : decode mode bytes address with
  | error e => exact List.length_pos_iff.mpr hne
  | ok i =>
    obtain ⟨read, rest, body, rfl, -, -, rfl⟩ := decode_eq_ok_iff.mp h
    rw [List.length_append]
    exact Nat.le_add_right read.length rest.length

namespace Block

/-- The bytes passed over before an entry of a walk. -/
def offset (entries : List Outcome) (i : Nat) : Nat :=
  ((entries.take i).map Outcome.span).sum

@[simp]
lemma offset_zero (entries : List Outcome) : offset entries 0 = 0 := rfl

@[simp]
lemma offset_cons_succ (e : Outcome) (entries : List Outcome) (i : Nat) :
    offset (e :: entries) (i + 1) = e.span + offset entries i := by
  simp [offset]

lemma offset_succ {entries : List Outcome} {i : Nat} {e : Outcome} (h : entries[i]? = some e) :
    offset entries (i + 1) = offset entries i + e.span := by
  simp [offset, List.take_add_one, h]

lemma offset_mono (entries : List Outcome) : Monotone (offset entries) := by
  apply monotone_nat_of_le_succ
  intro i
  cases h : entries[i]? with
  | none =>
    have hi : entries.length ≤ i := List.getElem?_eq_none_iff.mp h
    simp [offset, List.take_of_length_le hi, List.take_of_length_le (Nat.le_succ_of_le hi)]
  | some e =>
    rw [offset_succ h]
    exact Nat.le_add_right _ _

lemma exists_offset_le_lt {entries : List Outcome} {p : Nat}
    (hp : p < offset entries entries.length) :
    ∃ i, i < entries.length ∧ offset entries i ≤ p ∧ p < offset entries (i + 1) := by
  induction entries generalizing p with
  | nil => exact absurd hp (Nat.not_lt_zero p)
  | cons e entries ih =>
    by_cases hfirst : p < e.span
    · exact ⟨0, Nat.succ_pos _, Nat.zero_le p, by simpa using hfirst⟩
    · rw [List.length_cons, offset_cons_succ] at hp
      obtain ⟨i, hi, hle, hlt⟩ := ih (p := p - e.span) (by omega)
      refine ⟨i + 1, Nat.succ_lt_succ hi, ?_, ?_⟩
      · rw [offset_cons_succ]
        omega
      · rw [offset_cons_succ]
        omega

lemma existsUnique_offset_le_lt {entries : List Outcome} {p : Nat}
    (hp : p < offset entries entries.length) :
    ∃! i, i < entries.length ∧ offset entries i ≤ p ∧ p < offset entries (i + 1) := by
  obtain ⟨i, hi, hle, hlt⟩ := exists_offset_le_lt hp
  refine ⟨i, ⟨hi, hle, hlt⟩, ?_⟩
  rintro j ⟨-, hle', hlt'⟩
  rcases Nat.lt_trichotomy i j with hij | rfl | hji
  · have hmono : offset entries (i + 1) ≤ offset entries j := offset_mono entries hij
    omega
  · rfl
  · have hmono : offset entries (j + 1) ≤ offset entries i := offset_mono entries hji
    omega

section Walk

variable {mode : Mode} {start : UInt32}

lemma stepsFrom_skip (bytes : List UInt8) (offset skip : Nat) :
    stepsFrom mode start bytes offset skip =
      stepsFrom mode start (bytes.drop skip) (offset + skip) 0 := by
  induction bytes generalizing offset skip with
  | nil => simp [stepsFrom]
  | cons b bytes ih =>
    cases skip with
    | zero => rfl
    | succ skip =>
      have hoffset : offset + 1 + skip = offset + (skip + 1) := by omega
      rw [stepsFrom, ih, List.drop_succ_cons, hoffset]

lemma stepsFrom_of_ne_nil {bytes : List UInt8} (hne : bytes ≠ []) (offset : Nat) :
    let outcome := decode mode bytes (start + UInt32.ofNat offset)
    stepsFrom mode start bytes offset 0 = ⟨offset, bytes, outcome⟩ ::
      stepsFrom mode start (bytes.drop outcome.span) (offset + outcome.span) 0 := by
  cases bytes with
  | nil => exact absurd rfl hne
  | cons b bytes =>
    have hspan := one_le_span_decode mode (b :: bytes) (start + UInt32.ofNat offset)
    simp only [stepsFrom]
    generalize decode mode (b :: bytes) (start + UInt32.ofNat offset) = outcome at hspan ⊢
    obtain ⟨n, hn⟩ : ∃ n, outcome.span = n + 1 := ⟨outcome.span - 1, by omega⟩
    have hoffset : offset + 1 + n = offset + (n + 1) := by omega
    rw [stepsFrom_skip, hn, Nat.add_sub_cancel, List.drop_succ_cons, hoffset]

/-- A walk as a row of steps: each decodes what is left of the block, takes at least one byte of it
and none beyond its end. -/
inductive Walk (mode : Mode) (start : UInt32) : List UInt8 → Nat → List Step → Prop
  | stop (offset : Nat) : Walk mode start [] offset []
  | step {bytes : List UInt8} {offset : Nat} {steps : List Step} {outcome : Outcome}
      (decoded : outcome = decode mode bytes (start + UInt32.ofNat offset))
      (nonempty : bytes ≠ []) (one_le : 1 ≤ outcome.span) (le_length : outcome.span ≤ bytes.length)
      (rest : Walk mode start (bytes.drop outcome.span) (offset + outcome.span) steps) :
      Walk mode start bytes offset (⟨offset, bytes, outcome⟩ :: steps)

theorem walk_stepsFrom (bytes : List UInt8) (offset : Nat) :
    Walk mode start bytes offset (stepsFrom mode start bytes offset 0) := by
  induction hn : bytes.length using Nat.strongRecOn generalizing bytes offset with
  | _ n ih =>
    by_cases hne : bytes = []
    · subst hne
      exact .stop offset
    · have hpos := one_le_span_decode mode bytes (start + UInt32.ofNat offset)
      have hle := span_decode_le hne mode (start + UInt32.ofNat offset)
      rw [stepsFrom_of_ne_nil hne]
      refine .step rfl hne hpos hle (ih _ ?_ _ _ rfl)
      rw [List.length_drop]
      omega

namespace Walk

variable {bytes : List UInt8} {offset : Nat} {steps : List Step}

lemma offset_length (h : Walk mode start bytes offset steps) :
    Block.offset (steps.map (·.outcome)) steps.length = bytes.length := by
  induction h with
  | stop offset => rfl
  | step decoded nonempty one_le le_length rest ih =>
    rw [List.map_cons, List.length_cons, offset_cons_succ, ih, List.length_drop]
    exact Nat.add_sub_of_le le_length

/-- Each step stands where the steps before it end, and decodes what is left there. -/
lemma eq_of_getElem? (h : Walk mode start bytes offset steps) {i : Nat} {s : Step}
    (hs : steps[i]? = some s) :
    let o := Block.offset (steps.map (·.outcome)) i
    1 ≤ s.outcome.span ∧ s = ⟨offset + o, bytes.drop o,
      decode mode (bytes.drop o) (start + UInt32.ofNat (offset + o))⟩ := by
  induction h generalizing i with
  | stop offset => cases hs
  | step decoded nonempty one_le le_length rest ih =>
    cases i with
    | zero =>
      obtain rfl := Option.some.inj hs
      subst decoded
      exact ⟨one_le, rfl⟩
    | succ i =>
      have h := ih hs
      simpa only [List.map_cons, offset_cons_succ, List.drop_drop, Nat.add_assoc] using h

lemma ne_nil_of_mem (h : Walk mode start bytes offset steps) {s : Step} (hs : s ∈ steps) :
    s.rest ≠ [] := by
  induction h with
  | stop offset => cases hs
  | step decoded nonempty one_le le_length rest ih =>
    rcases List.mem_cons.mp hs with rfl | hs
    · exact nonempty
    · exact ih hs

/-- Bytes behind the block do not change a walk without truncations. They are walked over after
it. -/
lemma map_outcome_append (h : Walk mode start bytes offset steps)
    (complete : ∀ s ∈ steps, s.outcome.isTruncated = false) (more : List UInt8) :
    (stepsFrom mode start (bytes ++ more) offset 0).map (·.outcome) =
      steps.map (·.outcome) ++
        (stepsFrom mode start more (offset + bytes.length) 0).map (·.outcome) := by
  induction h with
  | stop offset => rfl
  | @step bytes offset steps outcome decoded nonempty one_le le_length rest ih =>
    obtain ⟨hfirst, hrest⟩ := List.forall_mem_cons.mp complete
    have hsame : decode mode (bytes ++ more) (start + UInt32.ofNat offset) = outcome := by
      rw [decoded] at hfirst ⊢
      exact decode_append hfirst more
    have hlength : offset + outcome.span + (bytes.drop outcome.span).length =
        offset + bytes.length := by
      rw [List.length_drop]
      omega
    rw [stepsFrom_of_ne_nil (List.append_ne_nil_of_left_ne_nil nonempty more), hsame,
      List.drop_append_of_le_length le_length, List.map_cons, List.map_cons, List.cons_append,
      ih hrest, hlength]

end Walk

lemma map_outcome_stepsFrom_add (bytes : List UInt8) (offset skip k : Nat) :
    (stepsFrom mode start bytes (k + offset) skip).map (·.outcome) =
      (stepsFrom mode (start + UInt32.ofNat k) bytes offset skip).map (·.outcome) := by
  induction bytes generalizing offset skip with
  | nil => simp [stepsFrom]
  | cons b bytes ih =>
    cases skip with
    | zero =>
      simp only [stepsFrom, List.map_cons]
      rw [UInt32.ofNat_add, ← UInt32.add_assoc, Nat.add_assoc, ih]
    | succ skip =>
      rw [stepsFrom, stepsFrom, Nat.add_assoc, ih]

end Walk

end Block

/-- A walk tiles its block: each entry stands where the one before it ends, the first at the start
and the last up to the end, so that each byte lies in one entry. An entry is what is decoded at its
offset, and carries the address of that offset on a ring of 2 ^ 32 addresses. -/
theorem disassemble_tiles (mode : Mode) (b : List UInt8) (a : UInt32) :
    let entries := disassemble mode b a
    let o := Block.offset entries
    o 0 = 0 ∧ o entries.length = b.length ∧
    (∀ (i : Nat) (e : Outcome), entries[i]? = some e →
      1 ≤ e.span ∧ o (i + 1) = o i + e.span ∧ o (i + 1) ≤ b.length ∧
      e = decode mode (b.drop (o i)) (a + UInt32.ofNat (o i)) ∧
      e.address = a + UInt32.ofNat (o i) ∧
      (Block.steps mode b a)[i]? = some ⟨o i, b.drop (o i), e⟩) ∧
    ∀ p, p < b.length → ∃! i, i < entries.length ∧ o i ≤ p ∧ p < o (i + 1) := by
  intro entries o
  have hwalk : Block.Walk mode a b 0 (Block.steps mode b a) := Block.walk_stepsFrom b 0
  have hlength : o entries.length = b.length := by
    have hlength := hwalk.offset_length
    rwa [← List.length_map (·.outcome)] at hlength
  refine ⟨rfl, hlength, ?_, ?_⟩
  · intro i e he
    have hlt : i < entries.length := (List.getElem?_eq_some_iff.mp he).1
    have hsucc : o (i + 1) = o i + e.span := Block.offset_succ he
    have hle : o (i + 1) ≤ b.length := by
      rw [← hlength]
      exact Block.offset_mono entries hlt
    obtain ⟨s, hs, rfl⟩ := Option.map_eq_some_iff.mp (List.getElem?_map.symm.trans he)
    obtain ⟨hpos, hstep⟩ := hwalk.eq_of_getElem? hs
    rw [Nat.zero_add] at hstep
    have hdecode : s.outcome = decode mode (b.drop (o i)) (a + UInt32.ofNat (o i)) :=
      congrArg Block.Step.outcome hstep
    refine ⟨hpos, hsucc, hle, hdecode, ?_, ?_⟩
    · rw [hdecode]
      exact address_decode mode _ _
    · rw [hs, hdecode]
      exact congrArg some hstep
  · intro p hp
    rw [← hlength] at hp
    exact Block.existsUnique_offset_le_lt hp

theorem disassemble_tiles_wrapped :
    let entries := disassemble .real [0xF1, 0x90, 0xB8] 0xFFFFFFFF
    entries.length = 3 ∧ Block.offset entries 3 = 3 ∧
      (∃ i, entries[1]? = some (.ok i) ∧ i.address = 0 ∧ i.length = 1) ∧
      ∃! i, i < entries.length ∧ Block.offset entries i ≤ 2 ∧ 2 < Block.offset entries (i + 1) := by
  obtain ⟨-, hlength, hentry, hbyte⟩ := disassemble_tiles .real [0xF1, 0x90, 0xB8] 0xFFFFFFFF
  refine ⟨rfl, hlength, ?_, hbyte 2 (by decide)⟩
  obtain ⟨-, hnext, -, -, haddress, -⟩ := hentry 1 _ rfl
  exact ⟨_, rfl, haddress, (Nat.add_left_cancel hnext).symm⟩

/-- A walk that meets no truncated instruction is not changed by the bytes that follow, and the walk
over both is the two walks in a row. -/
theorem disassemble_append (mode : Mode) (a : UInt32) (b₁ b₂ : List UInt8)
    (complete : ∀ e ∈ disassemble mode b₁ a, e.isTruncated = false) :
    disassemble mode (b₁ ++ b₂) a =
      disassemble mode b₁ a ++ disassemble mode b₂ (a + UInt32.ofNat b₁.length) := by
  have hwalk : Block.Walk mode a b₁ 0 (Block.steps mode b₁ a) := Block.walk_stepsFrom b₁ 0
  have happend := hwalk.map_outcome_append (List.forall_mem_map.mp complete) b₂
  rw [Nat.zero_add, ← Nat.add_zero b₁.length, Block.map_outcome_stepsFrom_add] at happend
  exact happend

theorem disassemble_append_wrapped :
    (∀ e ∈ disassemble .real [0xB8, 0x34, 0x12, 0xF1] 0xFFFFFFFC, e.isTruncated = false) ∧
      disassemble .real ([0xB8, 0x34, 0x12, 0xF1] ++ [0xC3, 0xB8]) 0xFFFFFFFC =
        disassemble .real [0xB8, 0x34, 0x12, 0xF1] 0xFFFFFFFC ++
          disassemble .real [0xC3, 0xB8] 0 := by
  have complete : ∀ e ∈ disassemble .real [0xB8, 0x34, 0x12, 0xF1] 0xFFFFFFFC,
      e.isTruncated = false := by decide
  exact ⟨complete, disassemble_append .real 0xFFFFFFFC _ [0xC3, 0xB8] complete⟩

/-- What follows a truncated instruction changes it. -/
example : disassemble .real ([0xB0] ++ [0x90]) 0 ≠
    disassemble .real [0xB0] 0 ++ disassemble .real [0x90] 1 := by
  decide

end X86Disassembly
