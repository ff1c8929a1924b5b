import Mathlib.Data.List.Basic
import Mathlib.Data.List.Forall2
import X86Disassembly.Proofs.OperandReading
import X86Disassembly.Proofs.PrefixSummary

/-!
# The two processors compared

The map of the 8086 is the map of the 386 with some rows laid over it, and the 8086 has two segment
registers less. Where neither matters, the two processors decode alike. Among the rows laid over,
most repeat a row of the map, so that the 8086 has several bytes for one opcode.
-/

namespace X86Disassembly

lemma get_foldl_set_of_forall_ne {α : Type} {n : Nat} (edits : List (Fin n × α))
    (map : Vector α n) {i : Fin n} (h : ∀ e ∈ edits, e.1 ≠ i) :
    (edits.foldl (fun map row => map.set row.1 row.2 row.1.isLt) map).get i = map.get i := by
  induction edits generalizing map with
  | nil => rfl
  | cons row edits ih =>
    obtain ⟨hrow, hedits⟩ := List.forall_mem_cons.mp h
    rw [List.foldl_cons, ih _ hedits]
    have hne : row.1.val ≠ i.val := fun heq => hrow (Fin.ext heq)
    exact Vector.getElem_set_ne row.1.isLt i.isLt hne

/-- The bytes that are prefixes of both processors. -/
def sharedPrefixes : List UInt8 :=
  [0x26, 0x2E, 0x36, 0x3E, 0xF0, 0xF2, 0xF3]

/-- The bytes that mean something else to the 8086. -/
def changedBytes : List UInt8 :=
  [0x0F, 0x60, 0x61, 0x62, 0x63, 0x64, 0x65, 0x66, 0x67, 0x68, 0x69, 0x6A, 0x6B, 0x6C, 0x6D, 0x6E,
    0x6F, 0xC0, 0xC1, 0xC8, 0xC9, 0xD8, 0xD9, 0xDA, 0xDB, 0xDC, 0xDD, 0xDE, 0xDF, 0xF1]

namespace Processor

lemma lead_i8086_of_notMem {x : UInt8} (h : x ∉ changedBytes) :
    Processor.i8086.lead x = Processor.i386.lead x := by
  have hrows : ∀ row ∈ OneByte.rows8086, UInt8.ofFin row.1 ∈ changedBytes := by
    decide +kernel
  apply get_foldl_set_of_forall_ne
  intro row hrow heq
  apply h
  have hmem := hrows row hrow
  rwa [heq, UInt8.ofFin_toFin] at hmem

lemma modifier?_of_mem_sharedPrefixes {b : UInt8} (h : b ∈ sharedPrefixes) :
    Processor.i8086.modifier? b = Processor.i386.modifier? b ∧
      (Processor.i386.modifier? b).isSome := by
  have htable : ∀ b ∈ sharedPrefixes, Processor.i8086.modifier? b = Processor.i386.modifier? b ∧
      (Processor.i386.modifier? b).isSome := by
    decide +kernel
  exact htable b h

lemma modifier?_eq_none_of_notMem {p : Processor} {x : UInt8} (hshared : x ∉ sharedPrefixes)
    (hchanged : x ∉ changedBytes) : p.modifier? x = none := by
  have htable : ∀ row ∈ p.prefixBytes, row.1 ∈ sharedPrefixes ∨ row.1 ∈ changedBytes := by
    cases p <;> decide
  apply modifier?_eq_none_of_forall_ne
  rintro row hrow rfl
  rcases htable row hrow with hmem | hmem
  · exact hshared hmem
  · exact hchanged hmem

lemma lead_segmentStore (p : Processor) :
    p.lead 0x8C = .opcode (.form (.of .movSreg [.ew, .sw])) := by
  cases p <;> rfl

lemma lead_segmentLoad (p : Processor) :
    p.lead 0x8E = .opcode (.form (.of .movSreg [.sw, .ew])) := by
  cases p <;> rfl

lemma eq_of_regSegment_mem_sources {p : Processor} {x : UInt8} {e : Entry} {m : UInt8} {f : Form}
    (hx : p.lead x = .opcode e) (hf : e.form? m = some f)
    (hsegment : .regSegment ∈ f.sources) : x = 0x8C ∨ x = 0x8E := by
  have htable : ∀ row ∈ p.leads.toList.zipIdx, ∀ f ∈ row.1.forms,
      .regSegment ∈ f.sources → row.2 = 0x8C ∨ row.2 = 0x8E := by
    cases p <;> decide +kernel
  have hrow := p.lead_mem_zipIdx x
  rw [hx] at hrow
  rcases htable _ hrow f (Entry.mem_forms hf) hsegment with h | h
  · exact .inl (UInt8.toNat_inj.mp h)
  · exact .inr (UInt8.toNat_inj.mp h)

/-- Opcodes that the 8086 does not tell apart. -/
inductive Alias8086 : UInt8 → UInt8 → Prop
  | jumpIf (c : Fin 16) : Alias8086 (0x60 + .ofNat c) (0x70 + .ofNat c)
  | retNearPop : Alias8086 0xC0 0xC2
  | retNear : Alias8086 0xC1 0xC3
  | retFarPop : Alias8086 0xC8 0xCA
  | retFar : Alias8086 0xC9 0xCB
  | coprocessor (c d : Fin 8) : Alias8086 (0xD8 + .ofNat c) (0xD8 + .ofNat d)

lemma Alias8086.lead_eq {x y : UInt8} (h : Alias8086 x y) :
    Processor.i8086.lead x = Processor.i8086.lead y := by
  cases h with
  | jumpIf c =>
    have htable : ∀ c : Fin 16, Processor.i8086.lead (0x60 + .ofNat c) =
        Processor.i8086.lead (0x70 + .ofNat c) := by decide +kernel
    exact htable c
  | retNearPop => rfl
  | retNear => rfl
  | retFarPop => rfl
  | retFar => rfl
  | coprocessor c d =>
    have htable : ∀ c : Fin 8, Processor.i8086.lead (0xD8 + .ofNat c) =
        Processor.i8086.lead 0xD8 := by decide +kernel
    rw [htable c, htable d]

lemma Alias8086.modifier?_eq_none {x y : UInt8} (h : Alias8086 x y) :
    Processor.i8086.modifier? x = none := by
  apply modifier?_eq_none_of_forall_ne
  cases h with
  | jumpIf c =>
    revert c
    decide
  | retNearPop => decide
  | retNear => decide
  | retFarPop => decide
  | retFar => decide
  | coprocessor c d =>
    clear d
    revert c
    decide

end Processor

namespace Decode

variable {p q : Processor}

/-- Two processors read an operand alike, unless it is a segment register that only one of them
has. -/
lemma readOperand_congr {f : Fields} {o : Operand}
    (h : o.source = .regSegment →
      (f.modrm.reg.val < p.segmentRegisters ↔ f.modrm.reg.val < q.segmentRegisters)) :
    readOperand p f o = readOperand q f o := by
  unfold readOperand
  cases hs : o.source with
  | regSegment => exact if_congr (h hs) rfl rfl
  | _ => rfl

lemma foldlM_readOperand_congr {ops : List Operand} {f : Fields}
    (h : .regSegment ∈ ops.map (·.source) →
      (f.modrm.reg.val < p.segmentRegisters ↔ f.modrm.reg.val < q.segmentRegisters)) :
    ops.foldlM (readOperand p) f = ops.foldlM (readOperand q) f := by
  induction ops generalizing f with
  | nil => rfl
  | cons o ops ih =>
    rw [List.map_cons, List.mem_cons] at h
    rw [List.foldlM_cons, List.foldlM_cons, readOperand_congr fun hs => h (.inl hs.symm)]
    apply Fetch.bind_congr_of_leads
    intro bytes g hg
    apply ih
    intro hmem
    rw [(modrm_of_leads_readOperand hg).1]
    exact h (.inr hmem)

lemma readOperands_congr {form : Form} {start : Fields}
    (h : .regSegment ∈ form.sources →
      (start.modrm.reg.val < p.segmentRegisters ↔ start.modrm.reg.val < q.segmentRegisters)) :
    readOperands p form start = readOperands q form start := by
  have hfields : (form.operandsAt start.operandSize).foldlM (readOperand p) start =
      (form.operandsAt start.operandSize).foldlM (readOperand q) start :=
    foldlM_readOperand_congr h
  exact congrArg (· >>= _) hfields

lemma readLead_congr {start : UInt8 → Fields} {e : Entry}
    (h : ∀ m form, e.form? m = some form → .regSegment ∉ form.sources) :
    readLead p start (.opcode e) = readLead q start (.opcode e) := by
  apply Fetch.bind_congr_of_leads
  rintro bytes ⟨form, m⟩ hread
  obtain ⟨-, -, hform⟩ := leads_readForm_iff.mp hread
  exact readOperands_congr fun hmem => absurd hmem (h m form hform)

lemma readLead_form {form : Form} (h : form.usesModRM = true) (start : UInt8 → Fields) :
    readLead p start (.opcode (.form form)) =
      Fetch.byte >>= fun m => readOperands p form (start m) := by
  have hread : readForm (.form form) = Fetch.byte >>= fun m => .done (form, m) := by
    rw [readForm, if_pos h]
    rfl
  rw [readLead, readEntry, hread]
  rfl

end Decode

/-- The opcode is one of the two moves of a segment register, and its ModRM byte names one that the
8086 does not have. -/
def NamesLaterSegment : List UInt8 → Prop
  | x :: m :: _ => (x = 0x8C ∨ x = 0x8E) ∧ ((ModRM.ofByte m).reg = 4 ∨ (ModRM.ofByte m).reg = 5)
  | _ => False

lemma exists_form_of_segmentMove {x : UInt8} (h : x = 0x8C ∨ x = 0x8E) :
    ∃ form, (∀ p : Processor, p.lead x = .opcode (.form form)) ∧ form.usesModRM = true ∧
      .regSegment ∈ form.sources := by
  rcases h with rfl | rfl
  · exact ⟨.of .movSreg [.ew, .sw], fun p => p.lead_segmentStore, rfl, by decide⟩
  · exact ⟨.of .movSreg [.sw, .ew], fun p => p.lead_segmentLoad, rfl, by decide⟩

lemma resume_readLead_i8086 {x : UInt8} (hchanged : x ∉ changedBytes)
    (hnone : Processor.i386.modifier? x = none) {start : UInt8 → Fields}
    (hstart : ∀ m, (start m).modrm = ModRM.ofByte m) {rest : List UInt8}
    (hsegment : ¬NamesLaterSegment (x :: rest)) (taken : List UInt8) (address : UInt32) :
    (Decode.readLead .i8086 start (Processor.i8086.lead x)).resume taken rest address =
      (Decode.readLead .i386 start (Processor.i386.lead x)).resume taken rest address := by
  by_cases hmove : x = 0x8C ∨ x = 0x8E
  · obtain ⟨form, hlead, huses, -⟩ := exists_form_of_segmentMove hmove
    rw [hlead, hlead, Decode.readLead_form huses, Decode.readLead_form huses,
      Fetch.resume_byte_bind, Fetch.resume_byte_bind]
    cases rest with
    | nil => rfl
    | cons m rest =>
      have hreg : (ModRM.ofByte m).reg ≠ 4 ∧ (ModRM.ofByte m).reg ≠ 5 :=
        not_or.mp fun h => hsegment ⟨hmove, h⟩
      dsimp only
      rw [Decode.readOperands_congr]
      intro _
      rw [hstart]
      simp only [Processor.segmentRegisters]
      omega
  · rw [Processor.lead_i8086_of_notMem hchanged]
    cases hlead : Processor.i386.lead x with
    | modifier m =>
      rw [Processor.modifier?, hlead] at hnone
      cases hnone
    | escape =>
      rw [Processor.eq_of_lead_eq_escape hlead] at hchanged
      exact absurd (by decide) hchanged
    | opcode e =>
      rw [Decode.readLead_congr]
      intro m form hform hmem
      exact hmove (Processor.eq_of_regSegment_mem_sources hlead hform hmem)

section Sizes

variable (s : OperandSize) (z : AddressSize) (address : UInt32)

lemma summary_i8086_of_sharedPrefixes {prefixes : List UInt8}
    (h : ∀ b ∈ prefixes, b ∈ sharedPrefixes) :
    Mode.summary ⟨.i8086, s, z⟩ prefixes = Mode.summary ⟨.i386, s, z⟩ prefixes := by
  unfold Mode.summary
  congr 1
  apply List.filterMap_congr
  intro b hb
  exact (Processor.modifier?_of_mem_sharedPrefixes (h b hb)).1

lemma isSome_modifier?_of_sharedPrefixes {prefixes : List UInt8}
    (h : ∀ b ∈ prefixes, b ∈ sharedPrefixes) (p : Processor) :
    ∀ b ∈ prefixes, (p.modifier? b).isSome := by
  intro b hb
  obtain ⟨heq, hsome⟩ := Processor.modifier?_of_mem_sharedPrefixes (h b hb)
  cases p with
  | i8086 => rwa [heq]
  | i386 => exact hsome

lemma decode_i8086_eq_decode_i386 {prefixes rest : List UInt8}
    (hprefixes : ∀ b ∈ prefixes, b ∈ sharedPrefixes)
    (hshared : ∀ x ∈ rest.head?, x ∉ sharedPrefixes)
    (hchanged : ∀ x ∈ rest.head?, x ∉ changedBytes) (hsegment : ¬NamesLaterSegment rest) :
    decode ⟨.i8086, s, z⟩ (prefixes ++ rest) address =
      decode ⟨.i386, s, z⟩ (prefixes ++ rest) address := by
  have hsome := isSome_modifier?_of_sharedPrefixes hprefixes
  have hnone : ∀ p : Processor, ∀ x ∈ rest.head?, p.modifier? x = none := fun p x hx =>
    Processor.modifier?_eq_none_of_notMem (hshared x hx) (hchanged x hx)
  cases rest with
  | nil =>
    rw [decode_prefixes_append ⟨.i8086, s, z⟩ (hsome _) (hnone _),
      decode_prefixes_append ⟨.i386, s, z⟩ (hsome _) (hnone _), Decode.readUnprefixed,
      Decode.readUnprefixed, Fetch.resume_byte_bind, Fetch.resume_byte_bind]
  | cons x rest =>
    rw [decode_prefixes_append_cons ⟨.i8086, s, z⟩ (hsome _) (hnone _ x rfl),
      decode_prefixes_append_cons ⟨.i386, s, z⟩ (hsome _) (hnone _ x rfl),
      summary_i8086_of_sharedPrefixes s z hprefixes]
    rw [resume_readLead_i8086 (hchanged x rfl) (hnone _ x rfl) (fun m => rfl) hsegment]
    rfl

lemma decode_i8086_ne_ok {prefixes rest : List UInt8}
    (hprefixes : ∀ b ∈ prefixes, b ∈ sharedPrefixes) (hsegment : NamesLaterSegment rest)
    (i : Instruction) : decode ⟨.i8086, s, z⟩ (prefixes ++ rest) address ≠ .ok i := by
  intro h
  match rest, hsegment with
  | x :: m :: rest, ⟨hmove, hreg⟩ =>
    obtain ⟨form, hlead, huses, hmem⟩ := exists_form_of_segmentMove hmove
    have hx : Processor.i8086.modifier? x = none := by
      rw [Processor.modifier?, hlead]
    have hsome := isSome_modifier?_of_sharedPrefixes hprefixes .i8086
    rw [decode_prefixes_append_cons ⟨.i8086, s, z⟩ hsome hx] at h
    split at h
    · cases h
    rw [hlead, Decode.readLead_form huses, Fetch.resume_byte_bind] at h
    split at h
    · cases h
    obtain ⟨read, body, hread⟩ := Fetch.exists_leads_of_resume_eq_ok h
    obtain ⟨first, second, fields, -, hfields, -⟩ := Fetch.leads_bind_done_iff.mp hread
    have hlt : (ModRM.ofByte m).reg.val < 4 := Decode.reg_lt_of_leads_foldlM hfields hmem
    rcases hreg with hreg | hreg
    · rw [hreg] at hlt
      exact absurd hlt (by decide)
    · rw [hreg] at hlt
      exact absurd hlt (by decide)

lemma decode_i8086_alias {prefixes : List UInt8}
    (hprefixes : ∀ b ∈ prefixes, (Processor.i8086.modifier? b).isSome) {x y : UInt8}
    (h : Processor.Alias8086 x y) (rest : List UInt8) :
    decode ⟨.i8086, s, z⟩ (prefixes ++ y :: rest) address =
      (decode ⟨.i8086, s, z⟩ (prefixes ++ x :: rest) address).restart (prefixes ++ [y]) := by
  have hx := h.modifier?_eq_none
  have hy : Processor.i8086.modifier? y = none := by
    rwa [Processor.modifier?, ← h.lead_eq]
  rw [decode_prefixes_append_cons ⟨.i8086, s, z⟩ hprefixes hx,
    decode_prefixes_append_cons ⟨.i8086, s, z⟩ hprefixes hy, h.lead_eq]
  have hlength : (prefixes ++ [x]).length = (prefixes ++ [y]).length := by simp
  split
  · rfl
  · have hrestart := Fetch.resume_append_eq_restart
      (Decode.readLead .i8086 (Decode.startFields ⟨.i8086, s, z⟩
        (Mode.summary ⟨.i8086, s, z⟩ prefixes)) (Processor.i8086.lead y)) address hlength [] rest
    rwa [List.append_nil, List.append_nil] at hrestart

lemma decode_i8086_lock {first second : List UInt8}
    (hfirst : ∀ b ∈ first, (Processor.i8086.modifier? b).isSome)
    (h : List.Forall₂ (fun b c => c = b ∨ b = 0xF1 ∧ c = 0xF0) first second)
    (rest : List UInt8) :
    decode ⟨.i8086, s, z⟩ (second ++ rest) address =
      (decode ⟨.i8086, s, z⟩ (first ++ rest) address).restart second := by
  have hmap : first.map Processor.i8086.modifier? = second.map Processor.i8086.modifier? := by
    induction h with
    | nil => rfl
    | @cons b c first second hbc _ ih =>
      obtain ⟨-, hfirst⟩ := List.forall_mem_cons.mp hfirst
      rw [List.map_cons, List.map_cons, ih hfirst]
      rcases hbc with rfl | ⟨rfl, rfl⟩ <;> rfl
  have hsecond : ∀ b ∈ second, (Processor.i8086.modifier? b).isSome := by
    rw [← List.forall_mem_map (P := fun m : Option Prefix => m.isSome)] at hfirst ⊢
    rwa [← hmap]
  have hgiven : first.filterMap Processor.i8086.modifier? =
      second.filterMap Processor.i8086.modifier? := by
    simpa only [List.filterMap_map, Function.id_comp] using congrArg (List.filterMap id) hmap
  exact decode_append_of_summary_eq hfirst hsecond h.length_eq (congrArg Prefixes.of hgiven) rest
    address

end Sizes

/-- Decoding for the 8086 and for the 386 differs only at the bytes that the 8086 reads otherwise,
and at segment registers that it does not have, which it never decodes. To the 8086, the opcodes
that repeat others and the second byte for a lock are the same as those they repeat. -/
theorem decode_i8086_versus_i386 (s : OperandSize) (z : AddressSize) (address : UInt32) :
    (∀ b : List UInt8,
      (∀ x ∈ (b.dropWhile sharedPrefixes.contains).head?, x ∉ changedBytes) →
      (¬NamesLaterSegment (b.dropWhile sharedPrefixes.contains) →
        decode ⟨.i8086, s, z⟩ b address = decode ⟨.i386, s, z⟩ b address) ∧
      (NamesLaterSegment (b.dropWhile sharedPrefixes.contains) →
        ∀ i, decode ⟨.i8086, s, z⟩ b address ≠ .ok i)) ∧
    (∀ prefixes : List UInt8, (∀ b ∈ prefixes, (Processor.i8086.modifier? b).isSome) →
      (∀ x y rest, Processor.Alias8086 x y →
        decode ⟨.i8086, s, z⟩ (prefixes ++ y :: rest) address =
          (decode ⟨.i8086, s, z⟩ (prefixes ++ x :: rest) address).restart (prefixes ++ [y])) ∧
      ∀ second rest, List.Forall₂ (fun b c => c = b ∨ b = 0xF1 ∧ c = 0xF0) prefixes second →
        decode ⟨.i8086, s, z⟩ (second ++ rest) address =
          (decode ⟨.i8086, s, z⟩ (prefixes ++ rest) address).restart second) := by
  constructor
  · intro b hchanged
    have hb : b.takeWhile sharedPrefixes.contains ++ b.dropWhile sharedPrefixes.contains = b :=
      List.takeWhile_append_dropWhile
    have hprefixes : ∀ c ∈ b.takeWhile sharedPrefixes.contains, c ∈ sharedPrefixes :=
      fun c hc => List.contains_iff_mem.mp (List.mem_takeWhile_imp hc)
    have hshared : ∀ x ∈ (b.dropWhile sharedPrefixes.contains).head?, x ∉ sharedPrefixes := by
      intro x hx
      simpa using eq_false_of_mem_head?_dropWhile hx
    generalize b.takeWhile sharedPrefixes.contains = prefixes at hb hprefixes
    generalize b.dropWhile sharedPrefixes.contains = rest at hb hchanged hshared ⊢
    subst hb
    exact ⟨decode_i8086_eq_decode_i386 s z address hprefixes hshared hchanged,
      decode_i8086_ne_ok s z address hprefixes⟩
  · intro prefixes hprefixes
    exact ⟨fun x y rest h => decode_i8086_alias s z address hprefixes h rest,
      fun second rest h => decode_i8086_lock s z address hprefixes h rest⟩

/-- A segment register that both processors have and one that the 8086 has not, a jump with its
other opcode, and an undefined opcode behind the other lock. -/
theorem decode_i8086_versus_i386_segments :
    (∃ i, decode .real [0xF0, 0x8C, 0xD8] 0 = .ok i ∧ decode .i8086 [0xF0, 0x8C, 0xD8] 0 = .ok i) ∧
    (∃ i, decode .real [0x26, 0x8E, 0x2E, 0x34, 0x12] 0 = .ok i) ∧
    (∀ i, decode .i8086 [0x26, 0x8E, 0x2E, 0x34, 0x12] 0 ≠ .ok i) ∧
    (∃ i, decode .i8086 [0xF1, 0x65, 0xFE] 0 = .ok i ∧
      decode .i8086 [0xF1, 0x75, 0xFE] 0 = .ok i) ∧
    decode .i8086 [0xF0, 0x26, 0xFF, 0xFF] 0 =
      .error ⟨0, .undefined [0xF0, 0x26, 0xFF, 0xFF]⟩ := by
  obtain ⟨hsame, halias⟩ := decode_i8086_versus_i386 .bits16 .bits16 0
  refine ⟨⟨_, rfl, ?_⟩, ⟨_, rfl⟩, ?_, ⟨_, rfl, ?_⟩, ?_⟩
  · apply (hsame [0xF0, 0x8C, 0xD8] (by decide +kernel)).1
    rintro ⟨-, hreg⟩
    revert hreg
    decide
  · apply (hsame [0x26, 0x8E, 0x2E, 0x34, 0x12] (by decide +kernel)).2
    exact ⟨.inr rfl, .inr rfl⟩
  · exact (halias [0xF1] (by decide +kernel)).1 0x65 0x75 [0xFE] (.jumpIf 5)
  · apply (halias [0xF1, 0x26] (by decide +kernel)).2 [0xF0, 0x26] [0xFF, 0xFF]
    exact .cons (.inr ⟨rfl, rfl⟩) (.cons (.inl rfl) .nil)

end X86Disassembly
