import Mathlib.Data.List.TakeWhile
import X86Disassembly.Proofs.PrefixReading
import X86Disassembly.Proofs.RoundTrip

/-!
# What decoding keeps of prefixes

Of a run of prefixes decoding keeps their number, the last segment and the last repetition, and
whether a lock, an operand-size override or an address-size override is among them. Neither the
order nor the repetition of prefixes matters beyond that.
-/

namespace X86Disassembly

/-- A prefix that repeats a string operation. -/
def isRepetition (b : UInt8) : Bool :=
  b == 0xF2 || b == 0xF3

namespace Processor

/-- The prefix bytes with their meaning. The 8086 has no size overrides and four segments, and two
bytes for a lock. -/
def prefixBytes : Processor → List (UInt8 × Prefix)
  | i8086 =>
    [(0x26, .segment .es), (0x2E, .segment .cs), (0x36, .segment .ss), (0x3E, .segment .ds),
      (0xF0, .lock), (0xF1, .lock), (0xF2, .repetition .repne), (0xF3, .repetition .rep)]
  | i386 =>
    [(0x26, .segment .es), (0x2E, .segment .cs), (0x36, .segment .ss), (0x3E, .segment .ds),
      (0x64, .segment .fs), (0x65, .segment .gs), (0x66, .operandSize), (0x67, .addressSize),
      (0xF0, .lock), (0xF2, .repetition .repne), (0xF3, .repetition .rep)]

/-- A row of the opcode map is in the table if it is a prefix. -/
def isListed (p : Processor) (row : Lead × Nat) : Bool :=
  match row.1 with
  | .modifier m => p.prefixBytes.contains (UInt8.ofNat row.2, m)
  | _ => true

lemma modifier?_eq_some_iff_mem {p : Processor} {b : UInt8} {m : Prefix} :
    p.modifier? b = some m ↔ (b, m) ∈ p.prefixBytes := by
  constructor
  · intro h
    have htable : ∀ row ∈ p.leads.toList.zipIdx, p.isListed row = true := by
      cases p <;> decide +kernel
    have hrow := p.lead_mem_zipIdx b
    rw [modifier?_eq_some_iff.mp h] at hrow
    have hmem := List.contains_iff_mem.mp (htable _ hrow)
    rwa [UInt8.ofNat_toNat] at hmem
  · intro h
    have htable : ∀ x ∈ p.prefixBytes, p.modifier? x.1 = some x.2 := by
      cases p <;> decide +kernel
    exact htable _ h

/-- The segment that a prefix byte names. -/
def segment? (p : Processor) (b : UInt8) : Option Segment :=
  (p.modifier? b).bind Prefix.segment?

lemma bind_repetition?_modifier? (p : Processor) (b : UInt8) :
    (p.modifier? b).bind Prefix.repetition? =
      if isRepetition b then some (if b = 0xF2 then .repne else .rep) else none := by
  cases hb : p.modifier? b with
  | none =>
    rw [if_neg]
    · rfl
    · intro hrepetition
      simp only [isRepetition, Bool.or_eq_true, beq_iff_eq] at hrepetition
      rcases hrepetition with rfl | rfl
      · have hrow : (0xF2, .repetition .repne) ∈ p.prefixBytes := by cases p <;> decide
        rw [modifier?_eq_some_iff_mem.mpr hrow] at hb
        cases hb
      · have hrow : (0xF3, .repetition .rep) ∈ p.prefixBytes := by cases p <;> decide
        rw [modifier?_eq_some_iff_mem.mpr hrow] at hb
        cases hb
  | some m =>
    have htable : ∀ x ∈ p.prefixBytes, x.2.repetition? =
        if isRepetition x.1 then some (if x.1 = 0xF2 then .repne else .rep) else none := by
      cases p <;> decide
    exact htable (b, m) (modifier?_eq_some_iff_mem.mp hb)

lemma modifier?_eq_none_of_forall_ne {p : Processor} {b : UInt8}
    (h : ∀ row ∈ p.prefixBytes, row.1 ≠ b) : p.modifier? b = none := by
  cases hb : p.modifier? b with
  | none => rfl
  | some m => exact absurd rfl (h _ (modifier?_eq_some_iff_mem.mp hb))

lemma mem_filterMap_modifier?_iff {p : Processor} {m : Prefix} {byte : UInt8}
    (hbyte : ∀ row ∈ p.prefixBytes, row.2 = m ↔ row.1 = byte) {prefixes : List UInt8}
    (h : ∀ b ∈ prefixes, (p.modifier? b).isSome) :
    m ∈ prefixes.filterMap p.modifier? ↔ byte ∈ prefixes := by
  rw [List.mem_filterMap]
  constructor
  · rintro ⟨b, hb, hm⟩
    obtain rfl : b = byte := (hbyte _ (modifier?_eq_some_iff_mem.mp hm)).mp rfl
    exact hb
  · intro hmem
    obtain ⟨given, hgiven⟩ := Option.isSome_iff_exists.mp (h byte hmem)
    obtain rfl : given = m := (hbyte _ (modifier?_eq_some_iff_mem.mp hgiven)).mpr rfl
    exact ⟨byte, hmem, hgiven⟩

/-- Two runs of prefixes that agree in all that decoding keeps of them. -/
structure Alike (p : Processor) (first second : List UInt8) : Prop where
  isSome_first : ∀ b ∈ first, (p.modifier? b).isSome
  isSome_second : ∀ b ∈ second, (p.modifier? b).isSome
  length : first.length = second.length
  segment : (first.filterMap p.segment?).getLast? = (second.filterMap p.segment?).getLast?
  repetition : (first.filter isRepetition).getLast? = (second.filter isRepetition).getLast?
  lock : (∃ b ∈ first, p.modifier? b = some .lock) ↔ ∃ b ∈ second, p.modifier? b = some .lock
  operandSize : 0x66 ∈ first ↔ 0x66 ∈ second
  addressSize : 0x67 ∈ first ↔ 0x67 ∈ second

end Processor

/-- A prefix that switches a size, with its byte and its flag in a summary. -/
inductive IsSwitch : Prefix → UInt8 → (Prefixes → Bool) → Prop
  | operandSize : IsSwitch .operandSize 0x66 Prefixes.operandSize
  | addressSize : IsSwitch .addressSize 0x67 Prefixes.addressSize

namespace Mode

variable {mode : Mode} {prefixes : List UInt8}

lemma segment_summary :
    (mode.summary prefixes).segment = (prefixes.filterMap mode.processor.segment?).getLast? := by
  dsimp only [summary, Prefixes.of]
  rw [List.filterMap_filterMap]
  rfl

lemma lock_summary_iff :
    (mode.summary prefixes).lock = true ↔
      ∃ b ∈ prefixes, mode.processor.modifier? b = some .lock := by
  simp [summary, Prefixes.of]

lemma repetition_summary :
    (mode.summary prefixes).repetition = (prefixes.filter isRepetition).getLast?.map
      fun b => if b = 0xF2 then .repne else .rep := by
  dsimp only [summary, Prefixes.of]
  rw [List.filterMap_filterMap, ← List.getLast?_map]
  congr 1
  induction prefixes with
  | nil => rfl
  | cons b prefixes ih =>
    rw [List.filterMap_cons, mode.processor.bind_repetition?_modifier?, ih]
    by_cases hb : isRepetition b
    · rw [if_pos hb, List.filter_cons_of_pos hb, List.map_cons]
    · rw [if_neg hb, List.filter_cons_of_neg hb]

lemma isSome_repetition_summary_iff :
    (mode.summary prefixes).repetition.isSome ↔ 0xF2 ∈ prefixes ∨ 0xF3 ∈ prefixes := by
  rw [repetition_summary, Option.isSome_map, Option.isSome_iff_ne_none, Ne,
    List.getLast?_eq_none_iff, List.filter_eq_nil_iff]
  simp only [not_forall, not_not, isRepetition, Bool.or_eq_true, beq_iff_eq]
  constructor
  · rintro ⟨b, hb, rfl | rfl⟩
    · exact .inl hb
    · exact .inr hb
  · rintro (h | h)
    · exact ⟨0xF2, h, .inl rfl⟩
    · exact ⟨0xF3, h, .inr rfl⟩

lemma repetition_summary_eq_repne_iff :
    (mode.summary prefixes).repetition = some .repne ↔
      (prefixes.filter isRepetition).getLast? = some 0xF2 := by
  rw [repetition_summary, Option.map_eq_some_iff]
  constructor
  · rintro ⟨b, hb, hrepne⟩
    have hb' : b = 0xF2 := by
      by_contra hne
      rw [if_neg hne] at hrepne
      cases hrepne
    rw [hb, hb']
  · intro hlast
    exact ⟨0xF2, hlast, rfl⟩

lemma switch_summary_iff {m : Prefix} {byte : UInt8} {flag : Prefixes → Bool}
    (hm : IsSwitch m byte flag) (h : ∀ b ∈ prefixes, (mode.processor.modifier? b).isSome) :
    flag (mode.summary prefixes) = true ↔ byte ∈ prefixes := by
  have hbyte : ∀ p : Processor, ∀ row ∈ p.prefixBytes, row.2 = m ↔ row.1 = byte := by
    intro p
    cases hm <;> cases p <;> decide
  have hflag : flag (mode.summary prefixes) =
      (prefixes.filterMap mode.processor.modifier?).contains m := by
    cases hm <;> rfl
  rw [hflag, ← Processor.mem_filterMap_modifier?_iff (hbyte _) h]
  exact List.contains_iff_mem

lemma summary_append (first second : List UInt8) :
    mode.summary (first ++ second) =
      (second.filterMap mode.processor.modifier?).foldl Prefixes.add (mode.summary first) := by
  rw [summary, List.filterMap_append, Prefixes.of_append]
  rfl

lemma summary_eq_of_alike {first second : List UInt8} (h : mode.processor.Alike first second) :
    mode.summary first = mode.summary second := by
  have hlock : (mode.summary first).lock = (mode.summary second).lock := by
    rw [Bool.eq_iff_iff, lock_summary_iff, lock_summary_iff]
    exact h.lock
  have hrepetition : (mode.summary first).repetition = (mode.summary second).repetition := by
    rw [repetition_summary, repetition_summary, h.repetition]
  have hsegment : (mode.summary first).segment = (mode.summary second).segment := by
    rw [segment_summary, segment_summary, h.segment]
  have hoperand : (mode.summary first).operandSize = (mode.summary second).operandSize := by
    rw [Bool.eq_iff_iff, switch_summary_iff .operandSize h.isSome_first,
      switch_summary_iff .operandSize h.isSome_second]
    exact h.operandSize
  have haddress : (mode.summary first).addressSize = (mode.summary second).addressSize := by
    rw [Bool.eq_iff_iff, switch_summary_iff .addressSize h.isSome_first,
      switch_summary_iff .addressSize h.isSome_second]
    exact h.addressSize
  cases h₁ : mode.summary first
  cases h₂ : mode.summary second
  simp_all

end Mode

lemma eq_false_of_mem_head?_dropWhile {α : Type} {test : α → Bool} {l : List α} {a : α}
    (h : a ∈ (l.dropWhile test).head?) : test a = false := by
  have hfirst := List.head?_dropWhile_not test l
  rwa [Option.mem_def.mp h] at hfirst

lemma Mode.exists_leadingPrefixes_append (mode : Mode) (b : List UInt8) :
    ∃ rest, b = mode.leadingPrefixes b ++ rest ∧
      (∀ c ∈ mode.leadingPrefixes b, (mode.processor.modifier? c).isSome) ∧
      ∀ c ∈ rest.head?, mode.processor.modifier? c = none := by
  refine ⟨b.dropWhile fun c => (mode.processor.modifier? c).isSome, ?_, ?_, ?_⟩
  · exact List.takeWhile_append_dropWhile.symm
  · intro c hc
    unfold leadingPrefixes at hc
    simpa using List.mem_takeWhile_imp hc
  · intro c hc
    simpa using eq_false_of_mem_head?_dropWhile hc

lemma Mode.leadingPrefixes_append {mode : Mode} {prefixes rest : List UInt8}
    (hprefixes : ∀ b ∈ prefixes, (mode.processor.modifier? b).isSome)
    (hrest : ∀ b ∈ rest.head?, mode.processor.modifier? b = none) :
    mode.leadingPrefixes (prefixes ++ rest) = prefixes := by
  rw [leadingPrefixes, List.takeWhile_append_of_pos hprefixes]
  cases rest with
  | nil => exact List.append_nil prefixes
  | cons b rest => simp [hrest b rfl]

/-- As many prefixes with the same summary give the same outcome, but for the bytes that an
undefined instruction lists. -/
lemma decode_append_of_summary_eq {mode : Mode} {first second : List UInt8}
    (hfirst : ∀ b ∈ first, (mode.processor.modifier? b).isSome)
    (hsecond : ∀ b ∈ second, (mode.processor.modifier? b).isSome)
    (hlength : first.length = second.length) (hsummary : mode.summary first = mode.summary second)
    (t : List UInt8) (address : UInt32) :
    decode mode (second ++ t) address = (decode mode (first ++ t) address).restart second := by
  obtain ⟨rest, ht, hmore, hrest⟩ := mode.exists_leadingPrefixes_append t
  generalize mode.leadingPrefixes t = more at ht hmore
  subst ht
  rw [← List.append_assoc, ← List.append_assoc,
    decode_prefixes_append mode (List.forall_mem_append.mpr ⟨hfirst, hmore⟩) hrest,
    decode_prefixes_append mode (List.forall_mem_append.mpr ⟨hsecond, hmore⟩) hrest,
    mode.summary_append, mode.summary_append, hsummary]
  exact Fetch.resume_append_eq_restart _ _ hlength more rest

/-- Runs of prefixes that agree in number, last segment, last repetition, lock and size overrides
are interchangeable, and an instruction behind them carries what they say. -/
theorem decode_append_of_alike (mode : Mode) (address : UInt32) {first second : List UInt8}
    (h : mode.processor.Alike first second) (t : List UInt8) :
    decode mode (second ++ t) address = (decode mode (first ++ t) address).restart second ∧
    ∀ i, decode mode (first ++ t) address = .ok i →
      (∀ b ∈ t.head?, mode.processor.modifier? b = none) →
      i.fields.segmentOverride = (first.filterMap mode.processor.segment?).getLast? ∧
      (i.fields.lock = true ↔ ∃ b ∈ first, mode.processor.modifier? b = some .lock) ∧
      (i.fields.repetition.isSome ↔ 0xF2 ∈ first ∨ 0xF3 ∈ first) ∧
      (i.fields.repetition = some .repne ↔
        (first.filter isRepetition).getLast? = some 0xF2) ∧
      i.fields.operandSize =
        (if 0x66 ∈ first then mode.operandSize.toggled else mode.operandSize) ∧
      i.fields.addressSize =
        (if 0x67 ∈ first then mode.addressSize.toggled else mode.addressSize) := by
  refine ⟨decode_append_of_summary_eq h.isSome_first h.isSome_second h.length
    (Mode.summary_eq_of_alike h) t address, ?_⟩
  intro i hi ht
  obtain ⟨e, rest, hbytes, rfl⟩ := exists_instruction_of_decode hi
  obtain rfl : e.prefixes = first := by
    rw [← e.takeWhile_bytes_append rest, ← hbytes]
    exact Mode.leadingPrefixes_append h.isSome_first ht
  refine ⟨Mode.segment_summary, Mode.lock_summary_iff, Mode.isSome_repetition_summary_iff,
    Mode.repetition_summary_eq_repne_iff, ?_, ?_⟩
  · exact if_congr (Mode.switch_summary_iff .operandSize h.isSome_first) rfl rfl
  · exact if_congr (Mode.switch_summary_iff .addressSize h.isSome_first) rfl rfl

theorem decode_append_of_alike_movs :
    ∃ i, decode .real ([0x2E, 0x66, 0xF2, 0x26, 0xF3] ++ [0xA5]) 0x7C00 = .ok i ∧
      decode .real ([0xF3, 0x66, 0x66, 0x66, 0x26] ++ [0xA5]) 0x7C00 = .ok i ∧
      i.fields.segmentOverride = some .es ∧ i.fields.lock ≠ true ∧
      i.fields.repetition.isSome ∧ i.fields.repetition ≠ some .repne ∧
      i.fields.operandSize = .bits32 ∧ i.fields.addressSize = .bits16 := by
  have halike : Mode.real.processor.Alike [0x2E, 0x66, 0xF2, 0x26, 0xF3]
      [0xF3, 0x66, 0x66, 0x66, 0x26] :=
    ⟨by decide +kernel, by decide +kernel, rfl, by decide +kernel, by decide, by decide +kernel,
      by decide, by decide⟩
  obtain ⟨hsame, hfields⟩ := decode_append_of_alike .real 0x7C00 halike [0xA5]
  obtain ⟨i, hi⟩ : ∃ i, decode .real ([0x2E, 0x66, 0xF2, 0x26, 0xF3] ++ [0xA5]) 0x7C00 = .ok i :=
    ⟨_, rfl⟩
  rw [hi] at hsame
  obtain ⟨hsegment, hlock, hrepetition, hrepne, hoperand, haddress⟩ :=
    hfields i hi (by decide +kernel)
  refine ⟨i, hi, hsame, hsegment, ?_, hrepetition.mpr (by decide), ?_, hoperand, haddress⟩
  · rw [Ne, hlock]
    decide +kernel
  · rw [Ne, hrepne]
    decide

end X86Disassembly
