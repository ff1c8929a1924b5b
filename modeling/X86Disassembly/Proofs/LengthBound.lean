import X86Disassembly.Proofs.PrefixSummary

/-!
# How long an instruction can get

Behind its prefixes an instruction has at most eleven bytes: one of opcode, a ModRM and a SIB byte,
four of displacement and four of immediate. A two-byte opcode is never followed by as many. Nothing
is therefore too long but for its prefixes, of which there must be five at least, and fifteen are
too long whatever follows.
-/

namespace X86Disassembly

namespace Fetch

variable {α β : Type}

/-- The plan asks for at most `n` bytes in all, and never gives up as overlong by itself. -/
def Within : Nat → Fetch α → Prop
  | _, .done _ => True
  | _, .undefined => True
  | _, .overlong => False
  | n, .take count next => count ≤ n ∧ ∀ bytes, (next bytes).Within (n - count)

lemma Within.mono {plan : Fetch α} {m n : Nat} (h : plan.Within m) (hle : m ≤ n) :
    plan.Within n := by
  induction plan generalizing m n with
  | done a => trivial
  | undefined => trivial
  | overlong => exact h
  | take count next ih =>
    exact ⟨Nat.le_trans h.1 hle, fun bytes => ih bytes (h.2 bytes) (Nat.sub_le_sub_right hle count)⟩

/-- Bounds add up when plans follow each other. The second one is needed only for what the first
plan can read. -/
lemma Within.bind {plan : Fetch α} {f : α → Fetch β} {m n : Nat} (h : plan.Within m)
    (hf : ∀ bytes a, plan.Leads bytes (.done a) → (f a).Within n) :
    (plan >>= f).Within (m + n) := by
  induction plan generalizing m with
  | done a => exact (hf [] a (.refl _)).mono (Nat.le_add_left n m)
  | undefined => trivial
  | overlong => exact h
  | take count next ih =>
    refine ⟨Nat.le_add_right_of_le h.1, ?_⟩
    intro bytes
    rw [Nat.sub_add_comm h.1]
    exact ih bytes (h.2 bytes) fun more a hmore => hf (bytes.toList ++ more) a (.take bytes hmore)

lemma Within.bind_done {plan : Fetch α} {n : Nat} (h : plan.Within n) (g : α → β) :
    (plan >>= fun a => .done (g a)).Within n :=
  h.bind (n := 0) fun _ _ _ => trivial

lemma Within.of_leads {plan left : Fetch α} {n : Nat} {bytes : List UInt8} (h : plan.Within n)
    (hlead : plan.Leads bytes left) : bytes.length ≤ n ∧ left.Within (n - bytes.length) := by
  induction hlead generalizing n with
  | refl plan => exact ⟨Nat.zero_le n, h⟩
  | @take count next rest left bytes _ ih =>
    have hcount := h.1
    obtain ⟨hle, hleft⟩ := ih (h.2 bytes)
    rw [List.length_append, Vector.length_toList, ← Nat.sub_sub]
    exact ⟨by omega, hleft⟩

lemma within_byte : byte.Within 1 :=
  ⟨Nat.le_refl 1, fun _ => trivial⟩

lemma within_unsigned (count : Nat) : (unsigned count).Within count :=
  ⟨Nat.le_refl count, fun _ => trivial⟩

lemma within_signed (count : Nat) : (signed count).Within count :=
  ⟨Nat.le_refl count, fun _ => trivial⟩

lemma within_foldlM {f : β → α → Fetch β} {cost : α → Nat} (hf : ∀ a b, (f b a).Within (cost a))
    (l : List α) (b : β) : (l.foldlM f b).Within (l.map cost).sum := by
  induction l generalizing b with
  | nil => trivial
  | cons a l ih =>
    rw [List.foldlM_cons, List.map_cons, List.sum_cons]
    exact (hf a b).bind fun _ b' _ => ih b'

section Resume

variable {plan : Fetch Body} {taken rest : List UInt8} {address : UInt32} {n : Nat}

lemma length_of_resume_eq_ok {i : Instruction} (h : plan.Within n)
    (start : taken.length ≤ maxLength) (hi : plan.resume taken rest address = .ok i) :
    taken.length ≤ i.length ∧ i.length ≤ taken.length + n := by
  obtain ⟨read, more, left, result, -, hread, hhalt, heq⟩ :=
    plan.exists_resume_eq start rest address
  rw [heq] at hi
  cases hhalt with
  | done body =>
    cases hi
    have hle := (h.of_leads hread).1
    have hlength : (taken ++ read).length = taken.length + read.length := List.length_append
    dsimp only
    omega
  | undefined => cases hi
  | overlong => cases hi
  | full => cases hi
  | short => cases hi

lemma resume_ne_tooLong (h : plan.Within n) (room : taken.length + n ≤ maxLength) (a : UInt32)
    (limit : Nat) : plan.resume taken rest address ≠ .error ⟨a, .tooLong limit⟩ := by
  obtain ⟨read, more, left, result, -, hread, hhalt, heq⟩ :=
    plan.exists_resume_eq (Nat.le_of_add_right_le room) rest address
  obtain ⟨hle, hleft⟩ := h.of_leads hread
  rw [heq]
  cases hhalt with
  | done body => nofun
  | undefined => nofun
  | overlong => exact hleft.elim
  | @full count next _ _ hfull =>
    have hcount : count ≤ n - read.length := hleft.1
    rw [List.length_append] at hfull
    omega
  | short => nofun

end Resume

end Fetch

/-- The most bytes that an operand of this shape takes behind the ModRM byte, in any mode. -/
def Template.mostBytes (t : Template) : Nat :=
  let number := (t.size.map (·.immediateBytes)).getD 4
  match t.source with
  | .rm => 5
  | .immediate | .immediate2 | .relative => number
  | .absolute => 4
  | .farPointer => number + 2
  | _ => 0

/-- The most bytes that the operands of a form take behind the ModRM byte. -/
def Form.mostBytes (f : Form) : Nat :=
  (f.operands.toList.map (·.mostBytes)).sum

/-- No form of the entry takes more than `n` bytes behind the opcode. -/
def Entry.fits (n : Nat) (e : Entry) : Bool :=
  e.forms.all fun f => (if e.hasModRM then 1 else 0) + f.mostBytes ≤ n

lemma TwoByte.fits_entry (b : UInt8) : (TwoByte.entry b).fits 9 = true := by
  have htable : ∀ e ∈ TwoByte.rows, e.fits 9 = true := by decide +kernel
  exact htable _ (TwoByte.entry_mem b)

lemma Processor.fits_of_lead {p : Processor} {b : UInt8} {e : Entry} (h : p.lead b = .opcode e) :
    e.fits 10 = true := by
  have htable : ∀ e ∈ oneByteEntries, e.fits 10 = true := by decide +kernel
  exact htable e (entry_mem_oneByteEntries h)

namespace Decode

open Fetch

lemma within_readDisplacement (f : Fields) (d : Displacement) :
    (readDisplacement f d).Within 4 := by
  cases d with
  | none => trivial
  | byte => exact ((within_signed 1).bind_done _).mono (by decide)
  | word => exact ((within_signed 2).bind_done _).mono (by decide)
  | dword => exact (within_signed 4).bind_done _

lemma within_readRegisterOrMemory (f : Fields) : (readRegisterOrMemory f).Within 5 := by
  unfold readRegisterOrMemory
  split
  · trivial
  · exact within_byte.bind fun _ _ _ => within_readDisplacement _ _
  · exact (within_readDisplacement _ _).mono (by decide)

lemma within_readOperand (p : Processor) (t : Template) (size : OperandSize) (f : Fields) :
    (readOperand p f (t.instantiate size)).Within t.mostBytes := by
  have hsize : (t.size.getD size).immediateBytes ≤ (t.size.map (·.immediateBytes)).getD 4 := by
    cases t.size with
    | none => exact size.immediateBytes_le
    | some s => exact Nat.le_refl _
  unfold readOperand Template.mostBytes Template.instantiate
  cases t.source with
  | regSegment =>
    dsimp only
    split <;> trivial
  | rm => exact within_readRegisterOrMemory f
  | immediate => exact ((within_unsigned _).mono hsize).bind_done _
  | immediate2 => exact ((within_unsigned _).mono hsize).bind_done _
  | relative => exact ((within_signed _).mono hsize).bind_done _
  | absolute => exact ((within_unsigned _).mono f.addressSize.bytes_le).bind_done _
  | farPointer =>
    exact ((within_unsigned _).mono hsize).bind fun _ _ _ => (within_unsigned 2).bind_done _
  | _ => trivial

lemma within_readOperands (p : Processor) (form : Form) (start : Fields) :
    (readOperands p form start).Within form.mostBytes := by
  have hfold := within_foldlM (f := fun f t => readOperand p f (t.instantiate start.operandSize))
    (fun t f => within_readOperand p t _ f) form.operands.toList start
  exact hfold.bind_done _

lemma within_listed (row : Option Form) : (listed row).Within 0 := by
  cases row with
  | none => trivial
  | some form => trivial

lemma within_readForm (entry : Entry) :
    (readForm entry).Within (if entry.hasModRM then 1 else 0) := by
  cases entry with
  | undefined => trivial
  | form f =>
    rw [readForm, Entry.hasModRM]
    cases f.usesModRM with
    | true => exact within_byte.bind_done _
    | false => trivial
  | group rows => exact within_byte.bind (n := 0) fun _ _ _ => (within_listed _).bind_done _
  | coprocessor rows => exact within_byte.bind (n := 0) fun _ _ _ => (within_listed _).bind_done _

lemma within_readEntry {entry : Entry} {n : Nat} (h : entry.fits n = true) (hn : 1 ≤ n)
    (p : Processor) (start : UInt8 → Fields) : (readEntry p start entry).Within n := by
  have hmodrm : (if entry.hasModRM then 1 else 0) ≤ n := by
    split
    · exact hn
    · exact Nat.zero_le n
  have hentry := (within_readForm entry).bind (n := n - if entry.hasModRM then 1 else 0)
    (f := fun row => readOperands p row.1 (start row.2)) ?_
  · rwa [Nat.add_sub_cancel' hmodrm] at hentry
  rintro bytes ⟨form, modrm⟩ hread
  obtain ⟨-, -, hform⟩ := leads_readForm_iff.mp hread
  apply (within_readOperands p form (start modrm)).mono
  apply Nat.le_sub_of_add_le'
  simpa using List.all_eq_true.mp h form (Entry.mem_forms hform)

lemma within_readLead {p : Processor} {x : UInt8} (hx : p.modifier? x = none)
    (start : UInt8 → Fields) : (readLead p start (p.lead x)).Within 10 := by
  cases hlead : p.lead x with
  | modifier m =>
    rw [Processor.modifier?_eq_some_iff.mpr hlead] at hx
    cases hx
  | escape =>
    exact within_byte.bind fun _ c _ =>
      within_readEntry (TwoByte.fits_entry c) (by decide) p start
  | opcode e => exact within_readEntry (Processor.fits_of_lead hlead) (by decide) p start

end Decode

section Prefixes

variable {mode : Mode} {prefixes rest : List UInt8} {address : UInt32}
  (hprefixes : ∀ b ∈ prefixes, (mode.processor.modifier? b).isSome)
  (hrest : ∀ b ∈ rest.head?, mode.processor.modifier? b = none)

include hprefixes hrest

lemma length_of_decode_prefixes_append {i : Instruction}
    (h : decode mode (prefixes ++ rest) address = .ok i) :
    prefixes.length < i.length ∧ i.length ≤ prefixes.length + 11 := by
  cases rest with
  | nil =>
    rw [decode_prefixes_append mode hprefixes hrest, Decode.readUnprefixed,
      Fetch.resume_byte_bind] at h
    split at h <;> cases h
  | cons x rest =>
    have hx := hrest x rfl
    rw [decode_prefixes_append_cons mode hprefixes hx] at h
    split at h
    · cases h
    have hcons : (prefixes ++ [x]).length = prefixes.length + 1 := by simp
    have hlength := Fetch.length_of_resume_eq_ok (Decode.within_readLead hx _) (by omega) h
    omega

lemma decode_prefixes_append_ne_tooLong (hroom : prefixes.length < 5) (a : UInt32) (limit : Nat) :
    decode mode (prefixes ++ rest) address ≠ .error ⟨a, .tooLong limit⟩ := by
  have hmax : ¬maxLength ≤ prefixes.length := by
    rw [maxLength]
    omega
  cases rest with
  | nil =>
    rw [decode_prefixes_append mode hprefixes hrest, Decode.readUnprefixed,
      Fetch.resume_byte_bind, if_neg hmax]
    intro h
    cases h
  | cons x rest =>
    have hx := hrest x rfl
    rw [decode_prefixes_append_cons mode hprefixes hx, if_neg hmax]
    apply Fetch.resume_ne_tooLong (Decode.within_readLead hx _)
    rw [List.length_append, List.length_singleton, maxLength]
    omega

lemma decode_prefixes_append_of_full (hfull : maxLength ≤ prefixes.length) :
    decode mode (prefixes ++ rest) address = .error ⟨address, .tooLong maxLength⟩ := by
  rw [decode_prefixes_append mode hprefixes hrest, Decode.readUnprefixed, Fetch.resume_byte_bind,
    if_pos hfull]

end Prefixes

/-- Only prefixes make an instruction too long. An instruction has at most eleven bytes behind the
prefixes that it starts with, what is too long starts with five prefixes at least, and whatever
starts with fifteen is too long. -/
theorem tooLong_only_by_prefixes (mode : Mode) (address : UInt32) (b : List UInt8) :
    let prefixes := mode.leadingPrefixes b
    (∀ i, decode mode b address = .ok i →
      prefixes.length < i.length ∧ i.length ≤ prefixes.length + 11) ∧
    (∀ a limit, decode mode b address = .error ⟨a, .tooLong limit⟩ → 5 ≤ prefixes.length) ∧
    (15 ≤ prefixes.length → decode mode b address = .error ⟨address, .tooLong 15⟩) := by
  intro prefixes
  obtain ⟨rest, hb, hprefixes, hrest⟩ := mode.exists_leadingPrefixes_append b
  rw [hb]
  refine ⟨?_, ?_, ?_⟩
  · intro i hi
    exact length_of_decode_prefixes_append hprefixes hrest hi
  · intro a limit h
    by_contra hfew
    exact decode_prefixes_append_ne_tooLong hprefixes hrest (Nat.lt_of_not_le hfew) a limit h
  · intro hfull
    exact decode_prefixes_append_of_full hprefixes hrest hfull

theorem tooLong_only_by_prefixes_add :
    let add : List UInt8 := [0x81, 0x84, 0x8B, 0x78, 0x56, 0x34, 0x12, 0xEF, 0xBE, 0xAD, 0xDE]
    (∃ i, decode .flat (List.replicate 4 0xF0 ++ add) 0 = .ok i ∧ i.length = 4 + 11 ∧
      i.length ≤ (Mode.flat.leadingPrefixes (List.replicate 4 0xF0 ++ add)).length + 11) ∧
    decode .flat (List.replicate 5 0xF0 ++ add) 0 = .error ⟨0, .tooLong 15⟩ ∧
    5 ≤ (Mode.flat.leadingPrefixes (List.replicate 5 0xF0 ++ add)).length ∧
    decode .flat (List.replicate 15 0xF0) 0 = .error ⟨0, .tooLong 15⟩ := by
  intro add
  obtain ⟨hlength, -, -⟩ := tooLong_only_by_prefixes .flat 0 (List.replicate 4 0xF0 ++ add)
  obtain ⟨-, hfive, -⟩ := tooLong_only_by_prefixes .flat 0 (List.replicate 5 0xF0 ++ add)
  obtain ⟨-, -, hfull⟩ := tooLong_only_by_prefixes .flat 0 (List.replicate 15 0xF0)
  have hlong : decode .flat (List.replicate 5 0xF0 ++ add) 0 = .error ⟨0, .tooLong 15⟩ := by
    decide +kernel
  have hfour : (decode .flat (List.replicate 4 0xF0 ++ add) 0).span = 4 + 11 := by
    decide +kernel
  refine ⟨?_, hlong, hfive 0 15 hlong, hfull (by decide +kernel)⟩
  cases h : decode .flat (List.replicate 4 0xF0 ++ add) 0 with
  | ok i =>
    rw [h] at hfour
    exact ⟨i, rfl, hfour, (hlength i h).2⟩
  | error e =>
    rw [h] at hfour
    cases hfour

end X86Disassembly
