import Mathlib.Algebra.GroupWithZero.Nat
import Mathlib.Tactic.Common
import X86Disassembly.ModRM
import X86Disassembly.Mode

/-!
# The forms of the opcode maps

Which form an opcode and its ModRM byte select, apart from how they are read, and the list of all
forms that can be selected. A fact about every form of the maps is checked on that list.
-/

namespace X86Disassembly

namespace Entry

/-- A ModRM byte follows the opcode. -/
def hasModRM : Entry → Bool
  | undefined => false
  | form f => f.usesModRM
  | group _ | coprocessor _ => true

/-- The form that the entry selects with a ModRM byte. -/
def form? : Entry → UInt8 → Option Form
  | undefined, _ => none
  | form f, _ => some f
  | group rows, m => rows.get (ModRM.ofByte m).reg
  | coprocessor rows, m => rows.get (ModRM.ofByte m).escapeRow

/-- The forms that the entry selects with any ModRM byte. -/
def forms : Entry → List Form
  | undefined => []
  | form f => [f]
  | group rows => rows.toList.filterMap id
  | coprocessor rows => rows.toList.filterMap id

lemma mem_forms {e : Entry} {m : UInt8} {f : Form} (h : e.form? m = some f) : f ∈ e.forms := by
  cases e with
  | undefined => cases h
  | form g =>
    obtain rfl : g = f := Option.some.inj h
    exact List.mem_singleton_self g
  | group rows =>
    refine List.mem_filterMap.mpr ⟨some f, ?_, rfl⟩
    rw [Vector.mem_toList_iff, ← h]
    exact Vector.getElem_mem _
  | coprocessor rows =>
    refine List.mem_filterMap.mpr ⟨some f, ?_, rfl⟩
    rw [Vector.mem_toList_iff, ← h]
    exact Vector.getElem_mem _

end Entry

/-- The forms that a first byte selects without an escape. -/
def Lead.forms : Lead → List Form
  | modifier _ | escape => []
  | opcode e => e.forms

/-- The entry of a first byte that is an opcode. -/
def Lead.entry? : Lead → Option Entry
  | modifier _ | escape => none
  | opcode e => some e

/-- The entry that the bytes of an opcode select: one byte, or an escape and the byte after it. -/
def Processor.lookup? (p : Processor) : List UInt8 → Option Entry
  | [b] =>
    match p.lead b with
    | .opcode e => some e
    | _ => none
  | [b, c] =>
    match p.lead b with
    | .escape => some (TwoByte.entry c)
    | _ => none
  | _ => none

namespace Processor

lemma modifier?_eq_some_iff {p : Processor} {b : UInt8} {m : Prefix} :
    p.modifier? b = some m ↔ p.lead b = .modifier m := by
  rw [modifier?]
  cases p.lead b <;> simp

lemma lookup?_eq_some_iff {p : Processor} {opcode : List UInt8} {e : Entry} :
    p.lookup? opcode = some e ↔ (∃ b, opcode = [b] ∧ p.lead b = .opcode e) ∨
      ∃ b c, opcode = [b, c] ∧ p.lead b = .escape ∧ TwoByte.entry c = e := by
  match opcode with
  | [] => simp [lookup?]
  | [b] => cases hb : p.lead b <;> simp [lookup?, hb]
  | [b, c] => cases hb : p.lead b <;> simp [lookup?, hb]
  | b :: c :: d :: l => simp [lookup?]

lemma lead_mem_zipIdx (p : Processor) (b : UInt8) :
    (p.lead b, b.toNat) ∈ p.leads.toList.zipIdx := by
  have hlt : b.toNat < p.leads.toList.length := by
    rw [Vector.length_toList]
    exact b.toNat_lt
  rw [List.mem_zipIdx_iff_getElem?, List.getElem?_eq_getElem hlt]
  rfl

lemma eq_of_lead_eq_escape {p : Processor} {b : UInt8} (h : p.lead b = .escape) : b = 0x0F := by
  have htable : ∀ row ∈ p.leads.toList.zipIdx,
      (match row.1 with | .escape => row.2 == 0x0F | _ => true) = true := by
    cases p <;> decide +kernel
  have hrow := p.lead_mem_zipIdx b
  rw [h] at hrow
  exact UInt8.toNat_inj.mp (eq_of_beq (htable _ hrow))

end Processor

/-- All forms of the opcode maps. -/
def listedForms : List Form :=
  OneByte.rows.flatMap Lead.forms ++ OneByte.rows8086.flatMap (·.2.forms) ++
    TwoByte.rows.flatMap Entry.forms

lemma get_foldl_set {α : Type} {n : Nat} {Q : α → Prop} (edits : List (Fin n × α))
    (map : Vector α n) (hmap : ∀ i, Q (map.get i)) (hedits : ∀ e ∈ edits, Q e.2) (i : Fin n) :
    Q ((edits.foldl (fun map row => map.set row.1 row.2) map).get i) := by
  induction edits generalizing map with
  | nil => exact hmap i
  | cons row edits ih =>
    rw [List.foldl_cons]
    apply ih
    · intro j
      have hget : (map.set row.1 row.2).get j = if row.1.val = j.val then row.2 else map.get j :=
        Vector.getElem_set ..
      rw [hget]
      by_cases hj : row.1.val = j.val
      · rw [if_pos hj]
        exact hedits row List.mem_cons_self
      · rw [if_neg hj]
        exact hmap j
    · exact fun e he => hedits e (List.mem_cons_of_mem row he)

lemma Processor.lead_mem (p : Processor) (b : UInt8) :
    p.lead b ∈ OneByte.rows ∨ ∃ row ∈ OneByte.rows8086, p.lead b = row.2 := by
  have h386 : ∀ i, OneByte.map386.get i ∈ OneByte.rows := by
    intro i
    have hmem : OneByte.map386.get i ∈ OneByte.map386 := Vector.getElem_mem _
    rw [← Vector.mem_toList_iff] at hmem
    exact hmem
  cases p with
  | i386 => exact .inl (h386 _)
  | i8086 =>
    rw [lead, leads, OneByte.map8086]
    apply get_foldl_set (Q := fun l => l ∈ OneByte.rows ∨ ∃ row ∈ OneByte.rows8086, l = row.2)
    · exact fun i => .inl (h386 i)
    · exact fun row hrow => .inr ⟨row, hrow, rfl⟩

/-- The entries of the opcodes of one byte. -/
def oneByteEntries : List Entry :=
  (OneByte.rows ++ OneByte.rows8086.map (·.2)).filterMap Lead.entry?

lemma Processor.entry_mem_oneByteEntries {p : Processor} {b : UInt8} {e : Entry}
    (h : p.lead b = .opcode e) : e ∈ oneByteEntries := by
  refine List.mem_filterMap.mpr ⟨.opcode e, ?_, rfl⟩
  rw [← h, List.mem_append]
  rcases p.lead_mem b with hrow | ⟨row, hrow, heq⟩
  · exact .inl hrow
  · exact .inr (heq ▸ List.mem_map_of_mem hrow)

lemma TwoByte.entry_mem (b : UInt8) : TwoByte.entry b ∈ TwoByte.rows := by
  have hmem : TwoByte.entry b ∈ TwoByte.map := Vector.getElem_mem _
  rw [← Vector.mem_toList_iff] at hmem
  exact hmem

/-- Every form that an opcode and a ModRM byte select is one of the list. -/
theorem mem_listedForms {p : Processor} {opcode : List UInt8} {e : Entry} {m : UInt8} {f : Form}
    (he : p.lookup? opcode = some e) (hf : e.form? m = some f) : f ∈ listedForms := by
  have hforms := Entry.mem_forms hf
  rw [listedForms, List.mem_append, List.mem_append]
  rcases Processor.lookup?_eq_some_iff.mp he with ⟨b, rfl, hlead⟩ | ⟨b, c, rfl, -, rfl⟩
  · left
    rcases p.lead_mem b with hrow | ⟨row, hrow, heq⟩
    · left
      rw [hlead] at hrow
      exact List.mem_flatMap.mpr ⟨_, hrow, hforms⟩
    · right
      rw [hlead] at heq
      exact List.mem_flatMap.mpr ⟨row, hrow, heq ▸ hforms⟩
  · right
    exact List.mem_flatMap.mpr ⟨_, TwoByte.entry_mem c, hforms⟩

end X86Disassembly
