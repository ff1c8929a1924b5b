import Mathlib.Algebra.GroupWithZero.Nat
import Mathlib.Tactic.Common
import X86Disassembly.Decode

/-!
# Runs of a reading plan

A run of a plan over a list of bytes reads a part of the list, request by request, and stops at the
first plan that cannot go on. `Leads` describes the part that is read and `Halts` the stop. Every
run splits into the two, and every such pair is a run, so that properties of decoding are proved
from the two relations and not from the interpreter.
-/

namespace X86Disassembly

namespace ByteCursor

lemma fetch_append {count : Nat} (position : Nat) (bytes : Vector UInt8 count)
    (rest : List UInt8) :
    ByteSource.fetch count (⟨position, bytes.toList ++ rest⟩ : ByteCursor) =
      (some bytes, ⟨position + count, rest⟩) := by
  have hlen : bytes.toList.length = count := bytes.length_toList
  have htake : (bytes.toList ++ rest).take count = bytes.toList := by
    rw [List.take_append_of_le_length (by omega), List.take_of_length_le (by omega)]
  have hdrop : (bytes.toList ++ rest).drop count = rest := by
    rw [List.drop_append_of_le_length (by omega), List.drop_of_length_le (by omega),
      List.nil_append]
  change ByteCursor.fetch count _ = _
  simp only [ByteCursor.fetch, htake, hdrop, hlen, dite_true]
  rfl

lemma fetch_short {count : Nat} (c : ByteCursor) (h : c.remaining.length < count) :
    ByteSource.fetch count c = (none, c) := by
  have hlen : (c.remaining.take count).length ≠ count := by
    rw [List.length_take]
    omega
  change ByteCursor.fetch count c = _
  simp only [ByteCursor.fetch, hlen, dite_false]

end ByteCursor

lemma exists_vector_append {count : Nat} {bytes : List UInt8} (h : count ≤ bytes.length) :
    ∃ (first : Vector UInt8 count) (rest : List UInt8), bytes = first.toList ++ rest := by
  refine ⟨⟨⟨bytes.take count⟩, by simp [Nat.min_eq_left h]⟩, bytes.drop count, ?_⟩
  exact (List.take_append_drop count bytes).symm

lemma toList_eq_singleton (v : Vector UInt8 1) : v.toList = [getElem v 0 Nat.zero_lt_one] := by
  obtain ⟨b, hb⟩ := List.length_eq_one_iff.mp v.length_toList
  simp [hb, ← Vector.getElem_toList]

namespace Fetch

variable {α β : Type}

/-- `plan.Leads bytes left`: once the bytes are read, request by request, `left` is what is left of
the plan. -/
inductive Leads : Fetch α → List UInt8 → Fetch α → Prop
  | refl (plan : Fetch α) : Leads plan [] plan
  | take {count : Nat} {next : Vector UInt8 count → Fetch α} {rest : List UInt8} {left : Fetch α}
      (bytes : Vector UInt8 count) (h : Leads (next bytes) rest left) :
      Leads (.take count next) (bytes.toList ++ rest) left

/-- `plan.Halts taken rest result`: with these bytes taken and only `rest` to come, the plan ends
at once with the result. -/
inductive Halts : Fetch α → List UInt8 → List UInt8 → Except Fault α → Prop
  | done (value : α) {taken rest : List UInt8} : Halts (.done value) taken rest (.ok value)
  | undefined {taken rest : List UInt8} : Halts .undefined taken rest (.error (.undefined taken))
  | overlong {taken rest : List UInt8} :
      Halts .overlong taken rest (.error (.tooLong maxLength))
  | full {count : Nat} {next : Vector UInt8 count → Fetch α} {taken rest : List UInt8}
      (h : maxLength < taken.length + count) :
      Halts (.take count next) taken rest (.error (.tooLong maxLength))
  | short {count : Nat} {next : Vector UInt8 count → Fetch α} {taken rest : List UInt8}
      (room : taken.length + count ≤ maxLength) (h : rest.length < count) :
      Halts (.take count next) taken rest
        (.error (.truncated (taken.length + count) taken.length))

namespace Leads

lemma trans {plan middle left : Fetch α} {bytes more : List UInt8} (h : plan.Leads bytes middle)
    (h' : middle.Leads more left) : plan.Leads (bytes ++ more) left := by
  induction h with
  | refl plan => exact h'
  | take bytes _ ih =>
    rw [List.append_assoc]
    exact .take bytes (ih h')

lemma bind {plan left : Fetch α} {bytes : List UInt8} (h : plan.Leads bytes left)
    (f : α → Fetch β) : (plan.bind f).Leads bytes (left.bind f) := by
  induction h with
  | refl plan => exact .refl _
  | take bytes _ ih => exact .take bytes ih

lemma exists_request {plan left : Fetch α} {bytes : List UInt8} (h : plan.Leads bytes left)
    {k : Nat} (hk : k < bytes.length) :
    ∃ (count : Nat) (next : Vector UInt8 count → Fetch α) (read : List UInt8),
      plan.Leads read (.take count next) ∧ read <+: bytes ∧ read.length ≤ k ∧
        k < read.length + count ∧ read.length + count ≤ bytes.length := by
  induction h generalizing k with
  | refl plan => exact absurd hk (Nat.not_lt_zero k)
  | @take count next rest left bytes _ ih =>
    have hlen : (bytes.toList ++ rest).length = count + rest.length := by simp
    by_cases hc : k < count
    · refine ⟨count, next, [], .refl _, List.nil_prefix, Nat.zero_le k, ?_, ?_⟩
      · simpa using hc
      · simp
    · rw [hlen] at hk
      obtain ⟨count', next', read, hread, hpre, hle, hlt, hend⟩ := ih (k := k - count) (by omega)
      have hlen' : (bytes.toList ++ read).length = count + read.length := by simp
      refine ⟨count', next', bytes.toList ++ read, .take bytes hread, ?_, ?_, ?_, ?_⟩
      · exact (List.prefix_append_right_inj _).mpr hpre
      · omega
      · omega
      · omega

end Leads

lemma leads_bind_done_iff {plan : Fetch α} {f : α → Fetch β} {bytes : List UInt8} {b : β} :
    (plan.bind f).Leads bytes (.done b) ↔
      ∃ (first second : List UInt8) (a : α), bytes = first ++ second ∧
        plan.Leads first (.done a) ∧ (f a).Leads second (.done b) := by
  constructor
  · intro h
    induction plan generalizing bytes with
    | done a => exact ⟨[], bytes, a, rfl, .refl _, h⟩
    | undefined => nomatch h
    | overlong => nomatch h
    | take count next ih =>
      cases h with
      | take head h' =>
        obtain ⟨first, second, a, rfl, hfirst, hsecond⟩ := ih head h'
        exact ⟨head.toList ++ first, second, a, (List.append_assoc ..).symm, .take head hfirst,
          hsecond⟩
  · rintro ⟨first, second, a, rfl, hfirst, hsecond⟩
    exact (hfirst.bind f).trans hsecond

lemma Leads.followed {plan : Fetch α} {f : α → Fetch β} {left : Fetch β} {a : α}
    {bytes more : List UInt8} (h : plan.Leads bytes (.done a)) (h' : (f a).Leads more left) :
    (plan >>= f).Leads (bytes ++ more) left :=
  (h.bind f).trans h'

lemma Leads.eq_of_prefix {plan : Fetch α} {first second whole : List UInt8} {a b : α}
    (ha : plan.Leads first (.done a)) (hb : plan.Leads second (.done b))
    (hfirst : first <+: whole) (hsecond : second <+: whole) : first = second ∧ a = b := by
  induction plan generalizing first second whole with
  | done value =>
    cases ha with
    | refl => cases hb with | refl => exact ⟨rfl, rfl⟩
  | undefined => nomatch ha
  | overlong => nomatch ha
  | take count next ih =>
    cases ha with
    | take head ha' =>
      cases hb with
      | take head' hb' =>
        obtain ⟨t, ht⟩ := hfirst
        obtain ⟨t', ht'⟩ := hsecond
        rw [← ht', List.append_assoc, List.append_assoc] at ht
        have hhead := List.append_inj ht (by simp)
        obtain rfl : head = head' := Vector.toList_inj.mp hhead.1
        have hrest := ih head ha' hb' (List.prefix_append _ t) ⟨t', hhead.2.symm⟩
        rw [hrest.1]
        exact ⟨rfl, hrest.2⟩

lemma leads_take_done (f : List UInt8 → α) {count : Nat} {bytes : List UInt8}
    (h : bytes.length = count) :
    (take count fun v => .done (f v.toList)).Leads bytes (.done (f bytes)) := by
  obtain ⟨v, rest, rfl⟩ := exists_vector_append (Nat.le_of_eq h.symm)
  obtain rfl : rest = [] := by simpa using h
  rw [List.append_nil]
  have hlead : (take count fun v => .done (f v.toList)).Leads (v.toList ++ [])
      (.done (f v.toList)) := .take v (.refl _)
  rw [List.append_nil] at hlead
  exact hlead

lemma leads_byte (b : UInt8) : byte.Leads [b] (.done b) := by
  have hlead : byte.Leads (#v[b].toList ++ []) (.done #v[b][0]) := .take #v[b] (.refl _)
  exact hlead

lemma leads_done_iff {a b : α} {bytes : List UInt8} :
    (done a).Leads bytes (.done b) ↔ bytes = [] ∧ a = b := by
  constructor
  · intro h
    cases h with
    | refl => exact ⟨rfl, rfl⟩
  · rintro ⟨rfl, rfl⟩
    exact .refl _

lemma exists_eq_of_leads_bind {plan : Fetch α} {g : α → β} {bytes : List UInt8}
    {b : β} (h : (plan >>= fun a => .done (g a)).Leads bytes (.done b)) : ∃ a, g a = b := by
  obtain ⟨first, second, a, -, -, hdone⟩ := leads_bind_done_iff.mp h
  exact ⟨a, (leads_done_iff.mp hdone).2⟩

lemma leads_byte_bind_iff {f : UInt8 → Fetch α} {bytes : List UInt8} {a : α} :
    (byte >>= f).Leads bytes (.done a) ↔
      ∃ b rest, bytes = b :: rest ∧ (f b).Leads rest (.done a) := by
  constructor
  · intro h
    obtain ⟨first, second, b, rfl, hfirst, hsecond⟩ := leads_bind_done_iff.mp h
    cases hfirst with
    | take v hv =>
      obtain ⟨rfl, rfl⟩ := leads_done_iff.mp hv
      refine ⟨v[0], second, ?_, hsecond⟩
      rw [toList_eq_singleton v, List.append_nil, List.singleton_append]
  · rintro ⟨b, rest, rfl, hrest⟩
    exact (leads_byte b).followed hrest

lemma leads_unsigned {count : Nat} {bytes : List UInt8} (h : bytes.length = count) :
    (unsigned count).Leads bytes (.done (LittleEndian.zeroExtended bytes)) :=
  leads_take_done LittleEndian.zeroExtended h

lemma leads_signed {count : Nat} {bytes : List UInt8} (h : bytes.length = count) :
    (signed count).Leads bytes (.done (LittleEndian.signExtended bytes)) :=
  leads_take_done LittleEndian.signExtended h

lemma Halts.run {plan : Fetch α} {taken rest : List UInt8} {result : Except Fault α}
    (h : plan.Halts taken rest result) (position : Nat) :
    plan.run (⟨⟨position, rest⟩, taken⟩ : Tape ByteCursor) =
      (result, ⟨⟨position, rest⟩, taken⟩) := by
  cases h with
  | done value => rfl
  | undefined => rfl
  | overlong => rfl
  | full h => rw [Fetch.run, if_pos h]
  | short room h =>
    rw [Fetch.run, if_neg (Nat.not_lt.mpr room), ByteCursor.fetch_short _ h]

/-- A run over bytes that the plan reads goes on after them with what is left of the plan. -/
lemma Leads.run {plan left : Fetch α} {bytes : List UInt8} (h : plan.Leads bytes left)
    (taken rest : List UInt8) (position : Nat) (room : taken.length + bytes.length ≤ maxLength) :
    plan.run (⟨⟨position, bytes ++ rest⟩, taken⟩ : Tape ByteCursor) =
      left.run ⟨⟨position + bytes.length, rest⟩, taken ++ bytes⟩ := by
  induction h generalizing taken position with
  | refl plan => simp
  | @take count next more left bytes _ ih =>
    have hlen : (bytes.toList ++ more).length = count + more.length := by simp
    rw [hlen] at room
    have hroom : ¬maxLength < taken.length + count := by omega
    rw [Fetch.run, if_neg hroom, List.append_assoc, ByteCursor.fetch_append]
    have htaken : (taken ++ bytes.toList).length = taken.length + count := by simp
    dsimp only
    rw [ih (taken ++ bytes.toList) (position + count) (by omega), hlen, List.append_assoc,
      Nat.add_assoc]

lemma Leads.run_tooLong {plan left : Fetch α} {bytes : List UInt8} (h : plan.Leads bytes left)
    (taken rest : List UInt8) (position : Nat) (hlong : maxLength < taken.length + bytes.length)
    (start : taken.length ≤ maxLength) :
    (plan.run (⟨⟨position, bytes ++ rest⟩, taken⟩ : Tape ByteCursor)).1 =
      .error (.tooLong maxLength) := by
  induction h generalizing taken position with
  | refl plan =>
    rw [List.length_nil] at hlong
    omega
  | @take count next more left bytes _ ih =>
    have hlen : (bytes.toList ++ more).length = count + more.length := by simp
    have htaken : (taken ++ bytes.toList).length = taken.length + count := by simp
    rw [hlen] at hlong
    rw [Fetch.run]
    by_cases hroom : maxLength < taken.length + count
    · rw [if_pos hroom]
    · rw [if_neg hroom, List.append_assoc, ByteCursor.fetch_append]
      exact ih (taken ++ bytes.toList) (position + count) (by omega) (by omega)

/-- Every run over a list of bytes reads a part of it and halts. -/
theorem exists_leads_halts (plan : Fetch α) (bytes taken : List UInt8)
    (start : taken.length ≤ maxLength) :
    ∃ (read rest : List UInt8) (left : Fetch α) (result : Except Fault α),
      bytes = read ++ rest ∧ plan.Leads read left ∧ left.Halts (taken ++ read) rest result ∧
        taken.length + read.length ≤ maxLength := by
  induction plan generalizing bytes taken with
  | done value => exact ⟨[], bytes, .done value, .ok value, rfl, .refl _, .done value, by simpa⟩
  | undefined => exact ⟨[], bytes, .undefined, _, rfl, .refl _, .undefined, by simpa⟩
  | overlong => exact ⟨[], bytes, .overlong, _, rfl, .refl _, .overlong, by simpa⟩
  | take count next ih =>
    have hnil : (taken ++ []).length = taken.length := by simp
    by_cases hroom : maxLength < taken.length + count
    · exact ⟨[], bytes, _, _, rfl, .refl _, .full (by rw [hnil]; exact hroom), by simpa⟩
    by_cases hshort : bytes.length < count
    · exact ⟨[], bytes, _, _, rfl, .refl _, .short (by rw [hnil]; omega) hshort, by simpa⟩
    obtain ⟨first, more, rfl⟩ := exists_vector_append (Nat.not_lt.mp hshort)
    have hfirst : (taken ++ first.toList).length = taken.length + count := by simp
    obtain ⟨read, rest, left, result, rfl, hread, hhalt, hle⟩ :=
      ih first more (taken ++ first.toList) (by omega)
    refine ⟨first.toList ++ read, rest, left, result, (List.append_assoc ..).symm,
      .take first hread, by rwa [← List.append_assoc], ?_⟩
    rw [List.length_append, Vector.length_toList]
    omega

end Fetch

namespace Outcome

/-- The outcome of a run that took `length` bytes. -/
def ofRun (address : UInt32) (length : Nat) : Except Fault Body → Outcome
  | .ok body => .ok { toBody := body, address, length }
  | .error fault => .error ⟨address, fault⟩

end Outcome

lemma decode_of_leads {mode : Mode} {read rest : List UInt8} {left : Fetch Body}
    {result : Except Fault Body} (hread : (Decode.readBody mode).Leads read left)
    (hhalt : left.Halts read rest result) (room : read.length ≤ maxLength) (address : UInt32) :
    decode mode (read ++ rest) address = .ofRun address read.length result := by
  have hrun := hread.run [] rest 0 (by simpa using room)
  rw [List.nil_append, hhalt.run] at hrun
  rw [decode, decodeFrom, hrun]
  cases result with
  | ok body => rfl
  | error fault => rfl

lemma decode_tooLong {mode : Mode} {read : List UInt8} {left : Fetch Body}
    (hread : (Decode.readBody mode).Leads read left) (hlong : maxLength < read.length)
    (rest : List UInt8) (address : UInt32) :
    decode mode (read ++ rest) address = .error ⟨address, .tooLong maxLength⟩ := by
  have hrun := hread.run_tooLong [] rest 0 (by simpa using hlong) (Nat.zero_le _)
  rw [decode, decodeFrom]
  revert hrun
  cases (Decode.readBody mode).run (⟨⟨0, read ++ rest⟩, []⟩ : Tape ByteCursor) with
  | mk result tape =>
    rintro rfl
    rfl

/-- Decoding reads a part of the bytes and halts. -/
theorem exists_decode_eq (mode : Mode) (bytes : List UInt8) (address : UInt32) :
    ∃ (read rest : List UInt8) (left : Fetch Body) (result : Except Fault Body),
      bytes = read ++ rest ∧ (Decode.readBody mode).Leads read left ∧
        left.Halts read rest result ∧ read.length ≤ maxLength ∧
        decode mode bytes address = .ofRun address read.length result := by
  obtain ⟨read, rest, left, result, rfl, hread, hhalt, room⟩ :=
    (Decode.readBody mode).exists_leads_halts bytes [] (Nat.zero_le _)
  rw [List.nil_append] at hhalt
  rw [List.length_nil, Nat.zero_add] at room
  exact ⟨read, rest, left, result, rfl, hread, hhalt, room,
    decode_of_leads hread hhalt room address⟩

/-- Decoding gives an instruction exactly when the plan can be read to its end in a first part of
the bytes that is not too long. -/
theorem decode_eq_ok_iff {mode : Mode} {bytes : List UInt8} {address : UInt32} {i : Instruction} :
    decode mode bytes address = .ok i ↔
      ∃ (read rest : List UInt8) (body : Body), bytes = read ++ rest ∧
        (Decode.readBody mode).Leads read (.done body) ∧ read.length ≤ maxLength ∧
        i = { toBody := body, address, length := read.length } := by
  constructor
  · intro h
    obtain ⟨read, rest, left, result, rfl, hread, hhalt, room, heq⟩ :=
      exists_decode_eq mode bytes address
    rw [heq] at h
    cases hhalt with
    | done body => exact ⟨read, rest, body, rfl, hread, room, (Except.ok.inj h).symm⟩
    | undefined => cases h
    | overlong => cases h
    | full => cases h
    | short => cases h
  · rintro ⟨read, rest, body, rfl, hread, room, rfl⟩
    exact decode_of_leads hread (.done body) room address

end X86Disassembly
