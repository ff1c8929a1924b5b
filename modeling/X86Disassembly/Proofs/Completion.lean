import X86Disassembly.Proofs.LengthBound
import X86Disassembly.Proofs.MissingSegment
import X86Disassembly.Proofs.Truncation

/-!
# Completing a truncated instruction

Wherever the bytes of an instruction may end, there is a way to go on: every opcode map that an
opcode leads to has a form, and no byte that is still to come can be refused. A truncated instruction
is therefore the beginning of an encoding, and few prefixes leave room for all of it. The one
exception is a store from a segment register that the processor does not have, which is refused as
soon as it is complete.
-/

namespace X86Disassembly

/-- The opcode is the store of a segment register, and its ModRM byte names one that the processor
does not have. -/
def Processor.StoresMissingSegment (p : Processor) : List UInt8 → Prop
  | x :: m :: _ => x = 0x8C ∧ p.segmentRegisters ≤ (ModRM.ofByte m).reg.val
  | _ => False

namespace Fetch

variable {α β : Type}

lemma leads_bind_take {plan : Fetch α} {f : α → Fetch β} {bytes : List UInt8} {count : Nat}
    {next : Vector UInt8 count → Fetch β} (h : (plan >>= f).Leads bytes (.take count next)) :
    (∃ next', plan.Leads bytes (.take count next')) ∨
      ∃ first second a, bytes = first ++ second ∧ plan.Leads first (.done a) ∧
        (f a).Leads second (.take count next) := by
  induction plan generalizing bytes with
  | done a => exact .inr ⟨[], bytes, a, rfl, .refl _, h⟩
  | undefined => nomatch h
  | overlong => nomatch h
  | take count' next' ih =>
    cases h with
    | refl => exact .inl ⟨next', .refl _⟩
    | take head h' =>
      rcases ih head h' with ⟨left, hleft⟩ | ⟨first, second, a, rfl, hfirst, hsecond⟩
      · exact .inl ⟨left, .take head hleft⟩
      · exact .inr ⟨head.toList ++ first, second, a, (List.append_assoc ..).symm,
          .take head hfirst, hsecond⟩

lemma leads_byte_bind_take {f : UInt8 → Fetch α} {bytes : List UInt8} {count : Nat}
    {next : Vector UInt8 count → Fetch α} (h : (byte >>= f).Leads bytes (.take count next)) :
    bytes = [] ∧ count = 1 ∨ ∃ b rest, bytes = b :: rest ∧ (f b).Leads rest (.take count next) := by
  cases h with
  | refl => exact .inl ⟨rfl, rfl⟩
  | @take _ _ rest _ head h' =>
    refine .inr ⟨head[0], rest, ?_, h'⟩
    rw [toList_eq_singleton head, List.singleton_append]

end Fetch

lemma Decode.leads_readForm_take {entry : Entry} {bytes : List UInt8} {count : Nat}
    {next : Vector UInt8 count → Fetch (Form × UInt8)}
    (h : (Decode.readForm entry).Leads bytes (.take count next)) :
    bytes = [] ∧ count = 1 ∧ entry.hasModRM = true := by
  have hlisted : ∀ (row : UInt8 → Option Form), (Fetch.byte >>= fun c =>
      Decode.listed (row c) >>= fun f => .done (f, c)).Leads bytes (.take count next) →
      bytes = [] ∧ count = 1 := by
    intro row h
    rcases Fetch.leads_byte_bind_take h with hfirst | ⟨b, rest, -, hrest⟩
    · exact hfirst
    · cases hrow : row b with
      | none =>
        rw [hrow] at hrest
        cases hrest
      | some f =>
        rw [hrow] at hrest
        cases hrest
  cases entry with
  | undefined => cases h
  | form f =>
    rw [Decode.readForm] at h
    rw [Entry.hasModRM]
    cases huses : f.usesModRM with
    | true =>
      rw [huses] at h
      obtain ⟨hbytes, hcount⟩ := hlisted (fun _ => some f) h
      exact ⟨hbytes, hcount, rfl⟩
    | false =>
      rw [huses] at h
      cases h
  | group rows =>
    obtain ⟨hbytes, hcount⟩ := hlisted (fun c => rows.get (ModRM.ofByte c).reg) h
    exact ⟨hbytes, hcount, rfl⟩
  | coprocessor rows =>
    obtain ⟨hbytes, hcount⟩ := hlisted (fun c => rows.get (ModRM.ofByte c).escapeRow) h
    exact ⟨hbytes, hcount, rfl⟩

/-- Some ModRM byte selects a form, with a segment register that any processor has. -/
def Entry.isOpen (e : Entry) : Bool :=
  [0x00, 0x08, 0x20].any fun m => (e.form? m).any fun f =>
    !f.sources.contains .regSegment || (ModRM.ofByte m).reg.val < 4

lemma Processor.isOpen_of_lookup? {p : Processor} {opcode : List UInt8} {e : Entry}
    (h : p.lookup? opcode = some e) (hmodrm : e.hasModRM = true) : e.isOpen = true := by
  have hone : ∀ e ∈ oneByteEntries, (!e.hasModRM || e.isOpen) = true := by
    decide +kernel
  have htwo : ∀ e ∈ TwoByte.rows, (!e.hasModRM || e.isOpen) = true := by
    decide +kernel
  rcases lookup?_eq_some_iff.mp h with ⟨b, -, hlead⟩ | ⟨b, c, -, -, rfl⟩
  · simpa [hmodrm] using hone e (entry_mem_oneByteEntries hlead)
  · simpa [hmodrm] using htwo _ (TwoByte.entry_mem c)

lemma Processor.exists_form?_of_lookup? {p : Processor} {opcode : List UInt8} {e : Entry}
    (h : p.lookup? opcode = some e) (hmodrm : e.hasModRM = true) :
    ∃ m f, e.form? m = some f ∧
      (.regSegment ∈ f.sources → (ModRM.ofByte m).reg.val < p.segmentRegisters) := by
  have hfour : 4 ≤ p.segmentRegisters := by
    cases p <;> decide
  obtain ⟨m, -, hm⟩ := List.any_eq_true.mp (isOpen_of_lookup? h hmodrm)
  obtain ⟨f, hf, hreg⟩ := (Option.any_eq_true _ _).mp hm
  refine ⟨m, f, hf, ?_⟩
  intro hmem
  have hlt : (ModRM.ofByte m).reg.val < 4 := by simpa [hmem] using hreg
  omega

lemma Entry.hasModRM_of_regSegment {e : Entry} {m : UInt8} {f : Form} (hf : e.form? m = some f)
    (h : .regSegment ∈ f.sources) : e.hasModRM = true := by
  cases e with
  | undefined => cases hf
  | form g =>
    obtain rfl : g = f := Option.some.inj hf
    obtain ⟨t, ht, hs⟩ := List.mem_map.mp h
    refine List.any_eq_true.mpr ⟨t, ht, ?_⟩
    rw [hs]
    rfl
  | group rows => rfl
  | coprocessor rows => rfl

lemma Processor.eq_of_lookup?_of_regSegment {p : Processor} {opcode : List UInt8} {e : Entry}
    {m : UInt8} {f : Form} (h : p.lookup? opcode = some e) (hf : e.form? m = some f)
    (hsegment : .regSegment ∈ f.sources) : opcode = [0x8C] ∨ opcode = [0x8E] := by
  have htwo : ∀ e ∈ TwoByte.rows, ∀ f ∈ e.forms, .regSegment ∉ f.sources := by
    decide +kernel
  rcases lookup?_eq_some_iff.mp h with ⟨b, rfl, hlead⟩ | ⟨b, c, -, -, rfl⟩
  · rcases eq_of_regSegment_mem_sources hlead hf hsegment with rfl | rfl
    · exact .inl rfl
    · exact .inr rfl
  · exact absurd hsegment (htwo _ (TwoByte.entry_mem c) f (Entry.mem_forms hf))

lemma Encoding.decode_of_few {mode : Mode} (e : Encoding mode) (hfew : e.prefixes.length ≤ 4)
    (rest : List UInt8) (address : UInt32) :
    decode mode (e.bytes ++ rest) address = .ok (e.instruction address) := by
  have hmax : maxLength = 15 := rfl
  have hlead := e.leads_body (by omega)
  by_cases hlength : e.bytes.length ≤ maxLength
  · exact decode_of_leads hlead (.done e.body) hlength address
  · have hlong := decode_tooLong hlead (Nat.lt_of_not_le hlength) rest address
    obtain ⟨more, hsplit, hprefixes, hmore⟩ :=
      mode.exists_leadingPrefixes_append (e.bytes ++ rest)
    have hleading : mode.leadingPrefixes (e.bytes ++ rest) = e.prefixes :=
      e.takeWhile_bytes_append rest
    rw [hleading] at hsplit hprefixes
    rw [hsplit] at hlong
    exact absurd hlong
      (decode_prefixes_append_ne_tooLong hprefixes hmore (Nat.lt_succ_of_le hfew) _ _)

section Truncated

variable {mode : Mode} {prefixes : List UInt8} {address a : UInt32} {needed available : Nat}
  (hprefixes : ∀ b ∈ prefixes, (mode.processor.modifier? b).isSome)
  (hfew : prefixes.length ≤ 4)

include hprefixes hfew

lemma exists_encoding_of_leads_readEntry {opcode read more : List UInt8} {entry : Entry}
    (hopcode : mode.processor.lookup? opcode = some entry)
    (h : decode mode (prefixes ++ (opcode ++ (read ++ more))) address =
      .error ⟨a, .truncated needed available⟩)
    (hstore : ¬mode.processor.StoresMissingSegment (opcode ++ (read ++ more)))
    {start : UInt8 → Fields} {count : Nat} {next : Vector UInt8 count → Fetch Body}
    (hread : (Decode.readEntry mode.processor start entry).Leads read (.take count next))
    (hshort : more.length < count) :
    ∃ e : Encoding mode, e.prefixes = prefixes ∧
      prefixes ++ (opcode ++ (read ++ more)) <+: e.bytes := by
  rcases Fetch.leads_bind_take hread with ⟨next', hform⟩ |
    ⟨modrm, operands, ⟨form, m⟩, rfl, hform, -⟩
  · obtain ⟨rfl, rfl, hmodrm⟩ := Decode.leads_readForm_take hform
    obtain rfl : more = [] := by simpa using hshort
    obtain ⟨m, form, hrow, hreg⟩ := Processor.exists_form?_of_lookup? hopcode hmodrm
    have hlength : [m].length = if entry.hasModRM then 1 else 0 := by
      rw [hmodrm]
      rfl
    obtain ⟨e, he, hbytes, -⟩ := exists_encoding_of_form hprefixes hopcode hlength hrow hreg []
    refine ⟨e, he, List.IsPrefix.trans ?_ hbytes⟩
    simp
  · obtain ⟨hlength, rfl, hrow⟩ := Decode.leads_readForm_iff.mp hform
    have hreg : .regSegment ∈ form.sources →
        (ModRM.ofByte (modrm.headD 0)).reg.val < mode.processor.segmentRegisters := by
      intro hmem
      by_contra hmissing
      rw [Entry.hasModRM_of_regSegment hrow hmem] at hlength
      obtain ⟨m, rfl⟩ := List.length_eq_one_iff.mp hlength
      rcases Processor.eq_of_lookup?_of_regSegment hopcode hrow hmem with rfl | rfl
      · exact hstore ⟨rfl, Nat.not_lt.mp hmissing⟩
      · have hload := decode_segmentLoad hprefixes (by omega) (Nat.not_lt.mp hmissing)
          (operands ++ more) address
        cases h.symm.trans hload
    obtain ⟨e, he, -, hwhole⟩ := exists_encoding_of_form hprefixes hopcode hlength hrow hreg
      (operands ++ more)
    refine ⟨e, he, ?_⟩
    have hbytes : prefixes ++ (opcode ++ (modrm ++ operands ++ more)) <+:
        prefixes ++ opcode ++ modrm ++ (operands ++ more) ++ List.replicate 48 0 :=
      ⟨List.replicate 48 0, by simp only [List.append_assoc]⟩
    rcases List.prefix_or_prefix_of_prefix hbytes hwhole with hbegin | ⟨t, ht⟩
    · exact hbegin
    · have hok := e.decode_of_few (he ▸ hfew) t address
      rw [ht, h] at hok
      cases hok

omit hfew in
lemma exists_encoding_of_opcode {opcode : List UInt8} {form : Form}
    (hopcode : mode.processor.lookup? opcode = some (.form form)) (huses : form.usesModRM = false) :
    ∃ e : Encoding mode, e.prefixes = prefixes ∧ prefixes ++ opcode <+: e.bytes := by
  have hmodrm : (Entry.form form).hasModRM = false := huses
  have hlength : ([] : List UInt8).length = if (Entry.form form).hasModRM then 1 else 0 := by
    rw [hmodrm]
    rfl
  have hregister : .regSegment ∉ form.sources := by
    intro hmem
    have hyes := Entry.hasModRM_of_regSegment (e := .form form) (m := 0) rfl hmem
    rw [hmodrm] at hyes
    cases hyes
  obtain ⟨e, he, hbytes, -⟩ := exists_encoding_of_form hprefixes hopcode hlength rfl
    (fun hmem => absurd hmem hregister) []
  rw [List.append_nil] at hbytes
  exact ⟨e, he, hbytes⟩

/-- A truncated instruction begins an encoding. -/
lemma exists_encoding_of_truncated {rest : List UInt8}
    (hrest : ∀ b ∈ rest.head?, mode.processor.modifier? b = none)
    (h : decode mode (prefixes ++ rest) address = .error ⟨a, .truncated needed available⟩)
    (hstore : ¬mode.processor.StoresMissingSegment rest) :
    ∃ e : Encoding mode, e.prefixes = prefixes ∧ prefixes ++ rest <+: e.bytes := by
  have hroom : prefixes.length ≤ maxLength := Nat.le_trans hfew (by decide)
  have hresume := h
  rw [decode_prefixes_append mode hprefixes hrest] at hresume
  obtain ⟨read, more, left, result, rfl, hread, hhalt, heq⟩ :=
    Fetch.exists_resume_eq _ hroom rest address
  rw [heq] at hresume
  cases hhalt with
  | done body => cases hresume
  | undefined => cases hresume
  | overlong => cases hresume
  | full => cases hresume
  | short _ hshort =>
    rcases Fetch.leads_byte_bind_take hread with ⟨rfl, rfl⟩ | ⟨x, read, rfl, hlead⟩
    · -- Without an opcode a `nop` will do.
      obtain rfl : more = [] := by simpa using hshort
      have hnop : mode.processor.lookup? [0x90] = some (.form (.of .nop [])) := by
        cases mode.processor <;> rfl
      obtain ⟨e, he, hbytes⟩ := exists_encoding_of_opcode hprefixes hnop rfl
      refine ⟨e, he, List.IsPrefix.trans ?_ hbytes⟩
      simp
    cases hx : mode.processor.lead x with
    | modifier m =>
      have hnone := hrest x rfl
      rw [Processor.modifier?_eq_some_iff.mpr hx] at hnone
      cases hnone
    | escape =>
      rw [hx] at hlead
      have hopcode : ∀ c, mode.processor.lookup? [x, c] = some (TwoByte.entry c) := fun c =>
        Processor.lookup?_eq_some_iff.mpr (.inr ⟨x, c, rfl, hx, rfl⟩)
      rcases Fetch.leads_byte_bind_take hlead with ⟨rfl, rfl⟩ | ⟨c, read, rfl, hentry⟩
      · obtain rfl : more = [] := by simpa using hshort
        -- The byte behind an escape may be that of `clts`.
        obtain ⟨e, he, hbytes⟩ := exists_encoding_of_opcode hprefixes (hopcode 0x06) rfl
        refine ⟨e, he, List.IsPrefix.trans ?_ hbytes⟩
        simp
      · exact exists_encoding_of_leads_readEntry hprefixes hfew (hopcode c) h hstore hentry hshort
    | opcode e =>
      rw [hx] at hlead
      have hopcode : mode.processor.lookup? [x] = some e :=
        Processor.lookup?_eq_some_iff.mpr (.inl ⟨x, rfl, hx⟩)
      exact exists_encoding_of_leads_readEntry hprefixes hfew hopcode h hstore hlead hshort

end Truncated

/-- Behind at most four prefixes, a truncated instruction can be completed, unless it is a store
from a segment register that the processor does not have: that one never becomes an instruction. -/
theorem exists_decode_append_iff_of_truncated {mode : Mode} {address a : UInt32} {b : List UInt8}
    {needed available : Nat} (h : decode mode b address = .error ⟨a, .truncated needed available⟩)
    (hfew : (mode.leadingPrefixes b).length ≤ 4) :
    (∃ t i, decode mode (b ++ t) address = .ok i) ↔
      ¬mode.processor.StoresMissingSegment (b.drop (mode.leadingPrefixes b).length) := by
  obtain ⟨rest, hb, hprefixes, hrest⟩ := mode.exists_leadingPrefixes_append b
  generalize mode.leadingPrefixes b = prefixes at hb hprefixes hfew ⊢
  subst hb
  rw [List.drop_left]
  constructor
  · rintro ⟨t, i, hi⟩ hstore
    match rest, hstore with
    | x :: m :: rest, ⟨hx, hmissing⟩ =>
      subst hx
      rw [List.append_assoc] at hi
      exact decode_segmentStore_ne_ok hprefixes (by omega) hmissing (rest ++ t) address i hi
  · intro hstore
    obtain ⟨e, he, t, ht⟩ := exists_encoding_of_truncated hprefixes hfew hrest h hstore
    have hok := e.decode_of_few (he ▸ hfew) [] address
    rw [List.append_nil, ← ht] at hok
    exact ⟨t, _, hok⟩

/-- A compare-and-exchange that ends before its ModRM byte, of which one `reg` field only has a form,
can be completed. A store from the seventh segment register that ends in its displacement cannot. -/
theorem exists_decode_append_iff_of_truncated_cmpxchg8b :
    (∃ t i, decode .flat ([0xF0, 0x0F, 0xC7] ++ t) 0 = .ok i) ∧
    ¬∃ t i, decode .real ([0x2E, 0x8C, 0x36, 0x34] ++ t) 0 = .ok i := by
  have hcompare : decode .flat [0xF0, 0x0F, 0xC7] 0 = .error ⟨0, .truncated 4 3⟩ := by
    decide +kernel
  have hstore : decode .real [0x2E, 0x8C, 0x36, 0x34] 0 = .error ⟨0, .truncated 5 3⟩ := by
    decide +kernel
  constructor
  · apply (exists_decode_append_iff_of_truncated hcompare (by decide +kernel)).mpr
    rintro ⟨hopcode, -⟩
    cases hopcode
  · rw [exists_decode_append_iff_of_truncated hstore (by decide +kernel), not_not]
    exact ⟨rfl, by decide⟩

end X86Disassembly
