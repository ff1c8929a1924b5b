import X86Disassembly.Proofs.Encoding
import X86Disassembly.Proofs.Reading

/-!
# Reading prefixes, opcode and ModRM byte

What stands before the operands is read in one way only: as many prefixes as there are, an opcode
after them, and a ModRM byte if the opcode calls for one.
-/

namespace X86Disassembly.Decode

lemma leads_readOpcode {p : Processor} {prefixes opcode : List UInt8} {entry : Entry}
    (hprefixes : ∀ b ∈ prefixes, (p.modifier? b).isSome) (hopcode : p.lookup? opcode = some entry)
    {room : Nat} (hroom : prefixes.length < room) (given : List Prefix) :
    (readOpcode p room (.of given)).Leads (prefixes ++ opcode)
      (.done (.of (given ++ prefixes.filterMap p.modifier?), entry)) := by
  induction prefixes generalizing room given with
  | nil =>
    obtain ⟨room, rfl⟩ := Nat.exists_eq_add_of_lt hroom
    rw [List.filterMap_nil, List.append_nil, List.nil_append]
    rcases Processor.lookup?_eq_some_iff.mp hopcode with ⟨b, rfl, hb⟩ | ⟨b, c, rfl, hb, rfl⟩
    · refine Fetch.leads_byte_bind_iff.mpr ⟨b, [], rfl, ?_⟩
      rw [hb]
      exact .refl _
    · refine Fetch.leads_byte_bind_iff.mpr ⟨b, [c], rfl, ?_⟩
      rw [hb]
      exact (Fetch.leads_byte c).bind _
  | cons b prefixes ih =>
    obtain ⟨m, hm⟩ := Option.isSome_iff_exists.mp (hprefixes b List.mem_cons_self)
    have hlead := Processor.modifier?_eq_some_iff.mp hm
    obtain ⟨room, rfl⟩ := Nat.exists_eq_add_of_lt hroom
    have hroom' : prefixes.length < prefixes.length + 1 + room := by omega
    have hrest := ih (fun c hc => hprefixes c (List.mem_cons_of_mem b hc)) hroom' (given ++ [m])
    rw [Prefixes.of_concat, List.append_assoc, List.singleton_append,
      ← List.filterMap_cons_some hm] at hrest
    refine Fetch.leads_byte_bind_iff.mpr ⟨b, prefixes ++ opcode, rfl, ?_⟩
    rw [hlead]
    exact hrest

lemma leads_readOpcode_overlong {p : Processor} {prefixes : List UInt8}
    (hprefixes : ∀ b ∈ prefixes, (p.modifier? b).isSome) (seen : Prefixes) :
    (readOpcode p prefixes.length seen).Leads prefixes .overlong := by
  induction prefixes generalizing seen with
  | nil => exact .refl _
  | cons b prefixes ih =>
    obtain ⟨m, hm⟩ := Option.isSome_iff_exists.mp (hprefixes b List.mem_cons_self)
    have hlead := Processor.modifier?_eq_some_iff.mp hm
    have hrest := ih (fun c hc => hprefixes c (List.mem_cons_of_mem b hc)) (seen.add m)
    refine (Fetch.leads_byte b).followed ?_
    rw [hlead]
    exact hrest

lemma exists_of_leads_readOpcode {p : Processor} {room : Nat} (given : List Prefix)
    {bytes : List UInt8} {seen : Prefixes} {entry : Entry}
    (h : (readOpcode p room (.of given)).Leads bytes (.done (seen, entry))) :
    ∃ prefixes opcode : List UInt8, bytes = prefixes ++ opcode ∧
      (∀ b ∈ prefixes, (p.modifier? b).isSome) ∧ p.lookup? opcode = some entry ∧
      prefixes.length < room ∧ seen = .of (given ++ prefixes.filterMap p.modifier?) := by
  induction room generalizing given bytes with
  | zero => nomatch h
  | succ room ih =>
    obtain ⟨b, rest, rfl, hrest⟩ := Fetch.leads_byte_bind_iff.mp h
    cases hb : p.lead b with
    | modifier m =>
      have hm := Processor.modifier?_eq_some_iff.mpr hb
      rw [hb] at hrest
      dsimp only at hrest
      rw [← Prefixes.of_concat] at hrest
      obtain ⟨prefixes, opcode, rfl, hprefixes, hopcode, hroom, rfl⟩ := ih (given ++ [m]) hrest
      refine ⟨b :: prefixes, opcode, rfl, ?_, hopcode, Nat.succ_lt_succ hroom, ?_⟩
      · intro c hc
        rcases List.mem_cons.mp hc with rfl | hc
        · rw [hm]
          rfl
        · exact hprefixes c hc
      · rw [List.append_assoc, List.singleton_append, ← List.filterMap_cons_some hm]
    | escape =>
      rw [hb] at hrest
      obtain ⟨c, rest, rfl, hdone⟩ := Fetch.leads_byte_bind_iff.mp hrest
      obtain ⟨rfl, heq⟩ := Fetch.leads_done_iff.mp hdone
      obtain ⟨rfl, rfl⟩ := Prod.mk.inj heq
      refine ⟨[], [b, c], rfl, nofun, ?_, Nat.succ_pos room, ?_⟩
      · exact Processor.lookup?_eq_some_iff.mpr (.inr ⟨b, c, rfl, hb, rfl⟩)
      · rw [List.filterMap_nil, List.append_nil]
    | opcode e =>
      rw [hb] at hrest
      obtain ⟨rfl, heq⟩ := Fetch.leads_done_iff.mp hrest
      obtain ⟨rfl, rfl⟩ := Prod.mk.inj heq
      refine ⟨[], [b], rfl, nofun, ?_, Nat.succ_pos room, ?_⟩
      · exact Processor.lookup?_eq_some_iff.mpr (.inl ⟨b, rfl, hb⟩)
      · rw [List.filterMap_nil, List.append_nil]

lemma leads_byte_listed_iff (row : UInt8 → Option Form) {modrm : List UInt8} {form : Form}
    {b : UInt8} :
    (Fetch.byte >>= fun c => listed (row c) >>= fun f => .done (f, c)).Leads modrm
      (.done (form, b)) ↔ modrm.length = 1 ∧ modrm.headD 0 = b ∧ row b = some form := by
  constructor
  · intro h
    obtain ⟨c, rest, rfl, hrest⟩ := Fetch.leads_byte_bind_iff.mp h
    cases hrow : row c with
    | none =>
      rw [hrow] at hrest
      nomatch hrest
    | some f =>
      rw [hrow] at hrest
      obtain ⟨rfl, heq⟩ := Fetch.leads_done_iff.mp hrest
      obtain ⟨rfl, rfl⟩ := Prod.mk.inj heq
      exact ⟨rfl, rfl, hrow⟩
  · rintro ⟨hlength, rfl, hrow⟩
    obtain ⟨c, rfl⟩ := List.length_eq_one_iff.mp hlength
    rw [List.headD_cons] at hrow ⊢
    refine Fetch.leads_byte_bind_iff.mpr ⟨c, [], rfl, ?_⟩
    rw [hrow]
    exact .refl _

/-- The form of an opcode is settled by a ModRM byte where one follows, and by nothing else where
none does. -/
lemma leads_readForm_iff {entry : Entry} {modrm : List UInt8} {form : Form} {b : UInt8} :
    (readForm entry).Leads modrm (.done (form, b)) ↔
      modrm.length = (if entry.hasModRM then 1 else 0) ∧ modrm.headD 0 = b ∧
        entry.form? b = some form := by
  cases entry with
  | undefined =>
    constructor
    · nofun
    · rintro ⟨-, -, h⟩
      cases h
  | form f =>
    rw [Entry.hasModRM, Entry.form?, readForm]
    cases f.usesModRM with
    | true => exact leads_byte_listed_iff fun _ => some f
    | false =>
      refine Fetch.leads_done_iff.trans ?_
      constructor
      · rintro ⟨rfl, heq⟩
        obtain ⟨rfl, rfl⟩ := Prod.mk.inj heq
        exact ⟨rfl, rfl, rfl⟩
      · rintro ⟨hlength, rfl, heq⟩
        obtain rfl : modrm = [] := List.eq_nil_of_length_eq_zero hlength
        exact ⟨rfl, Prod.ext (Option.some.inj heq) rfl⟩
  | group rows => exact leads_byte_listed_iff fun c => rows.get (ModRM.ofByte c).reg
  | coprocessor rows => exact leads_byte_listed_iff fun c => rows.get (ModRM.ofByte c).escapeRow

end X86Disassembly.Decode
