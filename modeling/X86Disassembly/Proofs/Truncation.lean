import X86Disassembly.Proofs.Locality

/-!
# Truncated instructions

A truncation says how many bytes would have gone further. Fewer change nothing, and as many lead to
another outcome, which is a truncation again only if it asks for more. A reader that supplies what
each truncation asks for therefore comes to an end, and ends with the outcome of the whole stream.
-/

namespace X86Disassembly

namespace Outcome

/-- The bytes that a truncation asks for. -/
def needed? : Outcome → Option Nat
  | .error ⟨_, .truncated needed _⟩ => some needed
  | _ => none

/-- Decoding went on behind the first `count` bytes, or was refused for its length. -/
def Passes (count : Nat) : Outcome → Prop
  | .ok i => count ≤ i.length
  | .error ⟨_, .undefined bytes⟩ => count ≤ bytes.length
  | .error ⟨_, .tooLong _⟩ => True
  | .error ⟨_, .truncated needed _⟩ => count < needed

end Outcome

section Truncated

variable {mode : Mode} {address a : UInt32} {b : List UInt8} {needed available : Nat}

/-- A truncation stands at a request that the bytes do not meet. -/
lemma exists_request_of_truncated
    (h : decode mode b address = .error ⟨a, .truncated needed available⟩) :
    ∃ (read rest : List UInt8) (count : Nat) (next : Vector UInt8 count → Fetch Body),
      b = read ++ rest ∧ (Decode.readBody mode).Leads read (.take count next) ∧
        read.length + count ≤ maxLength ∧ rest.length < count ∧
        needed = read.length + count ∧ available = read.length ∧ a = address := by
  obtain ⟨read, rest, left, result, rfl, hread, hhalt, -, heq⟩ := exists_decode_eq mode b address
  rw [heq] at h
  cases hhalt with
  | done body => cases h
  | undefined => cases h
  | overlong => cases h
  | full => cases h
  | short room hshort =>
    cases h
    exact ⟨read, rest, _, _, rfl, hread, room, hshort, rfl, rfl, rfl⟩

lemma passes_of_leads {read : List UInt8} {left : Fetch Body}
    (hread : (Decode.readBody mode).Leads read left) (room : read.length ≤ maxLength)
    (more : List UInt8) (address : UInt32) :
    (decode mode (read ++ more) address).Passes read.length := by
  obtain ⟨read', rest, last, result, rfl, hread', hhalt, room'⟩ :=
    left.exists_leads_halts more read room
  have hlength : (read ++ read').length = read.length + read'.length := List.length_append
  have heq := decode_of_leads (hread.trans hread') hhalt (by omega) address
  rw [List.append_assoc] at heq
  rw [heq]
  cases hhalt with
  | done body =>
    change read.length ≤ (read ++ read').length
    omega
  | undefined =>
    change read.length ≤ (read ++ read').length
    omega
  | overlong => trivial
  | full => trivial
  | @short count next _ _ _ hshort =>
    change read.length < (read ++ read').length + count
    omega

lemma decode_append_of_lt_needed
    (h : decode mode b address = .error ⟨a, .truncated needed available⟩) {t : List UInt8}
    (ht : (b ++ t).length < needed) :
    decode mode (b ++ t) address = .error ⟨a, .truncated needed available⟩ := by
  obtain ⟨read, rest, count, next, rfl, hread, room, -, rfl, rfl, rfl⟩ :=
    exists_request_of_truncated h
  have hshort : (rest ++ t).length < count := by
    simp only [List.length_append] at ht ⊢
    omega
  rw [List.append_assoc]
  exact decode_of_leads hread (.short room hshort) (by omega) _

lemma passes_of_needed_le
    (h : decode mode b address = .error ⟨a, .truncated needed available⟩) {t : List UInt8}
    (ht : needed ≤ (b ++ t).length) : (decode mode (b ++ t) address).Passes needed := by
  obtain ⟨read, rest, count, next, rfl, hread, room, -, rfl, -, -⟩ :=
    exists_request_of_truncated h
  have hcount : count ≤ (rest ++ t).length := by
    simp only [List.length_append] at ht ⊢
    omega
  obtain ⟨first, more, hfirst⟩ := exists_vector_append hcount
  have hlength : (read ++ first.toList).length = read.length + count := by simp
  have hnext : (Decode.readBody mode).Leads (read ++ first.toList) (next first) := by
    have hstep := hread.trans (.take first (.refl _))
    rwa [List.append_nil] at hstep
  have hpass := passes_of_leads hnext (by omega) more address
  rwa [hlength, List.append_assoc, ← hfirst, ← List.append_assoc] at hpass

lemma truncated_bounds (h : decode mode b address = .error ⟨a, .truncated needed available⟩) :
    available ≤ b.length ∧ b.length < needed ∧ needed ≤ maxLength := by
  obtain ⟨read, rest, count, next, rfl, -, room, hshort, rfl, rfl, -⟩ :=
    exists_request_of_truncated h
  rw [List.length_append]
  omega

end Truncated

namespace Incremental

variable (mode : Mode) (stream : List UInt8) (address : UInt32)

/-- The bytes that decoding the first `supplied` bytes asks for, if the stream has them. -/
def request? (supplied : Nat) : Option Nat :=
  (decode mode (stream.take supplied) address).needed?.filter (· ≤ stream.length)

/-- Decode the first `supplied` bytes of a stream, and in each round exactly as many as were asked
for, until nothing more is asked for or the stream has no more. -/
def run : (rounds supplied : Nat) → Option Outcome
  | 0, supplied =>
    if request? mode stream address supplied = none then
      some (decode mode (stream.take supplied) address)
    else none
  | rounds + 1, supplied =>
    match request? mode stream address supplied with
    | none => some (decode mode (stream.take supplied) address)
    | some needed => run rounds needed

variable {mode stream address}

lemma lt_and_le_of_request? {supplied needed : Nat}
    (h : request? mode stream address supplied = some needed) :
    supplied < needed ∧ needed ≤ maxLength := by
  obtain ⟨hneeded, hle⟩ := Option.filter_eq_some_iff.mp h
  rw [decide_eq_true_iff] at hle
  unfold Outcome.needed? at hneeded
  split at hneeded
  · rename_i a n available heq
    obtain rfl := Option.some.inj hneeded
    obtain ⟨-, hlt, hmax⟩ := truncated_bounds heq
    rw [List.length_take] at hlt
    omega
  · cases hneeded

lemma decode_take_of_request? {supplied : Nat}
    (h : request? mode stream address supplied = none) :
    decode mode (stream.take supplied) address = decode mode stream address := by
  have hsplit : stream.take supplied ++ stream.drop supplied = stream :=
    List.take_append_drop supplied stream
  cases htruncated : (decode mode (stream.take supplied) address).isTruncated with
  | false =>
    have hsame := decode_append htruncated (stream.drop supplied)
    rw [hsplit] at hsame
    exact hsame.symm
  | true =>
    unfold Outcome.isTruncated at htruncated
    split at htruncated
    · rename_i a needed available heq
      rw [request?, heq, Option.filter_eq_none_iff] at h
      have hshort : stream.length < needed := by
        simpa using h needed rfl
      rw [← hsplit] at hshort
      have hsame := decode_append_of_lt_needed heq hshort
      rw [hsplit] at hsame
      rw [heq, hsame]
    · cases htruncated

theorem run_eq_some {rounds supplied : Nat} (h : maxLength ≤ supplied + rounds) :
    run mode stream address rounds supplied = some (decode mode stream address) := by
  induction rounds generalizing supplied with
  | zero =>
    have hnone : request? mode stream address supplied = none := by
      cases hrequest : request? mode stream address supplied with
      | none => rfl
      | some needed =>
        have hbounds := lt_and_le_of_request? hrequest
        omega
    rw [run, if_pos hnone, decode_take_of_request? hnone]
  | succ rounds ih =>
    rw [run]
    cases hrequest : request? mode stream address supplied with
    | none => exact congrArg some (decode_take_of_request? hrequest)
    | some needed =>
      have hbounds := lt_and_le_of_request? hrequest
      exact ih (by omega)

end Incremental

/-- What a truncation reports is right. The bytes it asks for are more than there are and no more
than an instruction has; fewer give the same truncation, and as many are enough to get behind them.
A reader that supplies what is asked for, whatever it begins with, needs at most 15 rounds to the
outcome of the whole stream. -/
theorem truncation_sound (mode : Mode) (address : UInt32) :
    (∀ (b : List UInt8) (a : UInt32) (needed available : Nat),
      decode mode b address = .error ⟨a, .truncated needed available⟩ →
        available ≤ b.length ∧ b.length < needed ∧ needed ≤ 15 ∧
        (∀ t, (b ++ t).length < needed →
          decode mode (b ++ t) address = .error ⟨a, .truncated needed available⟩) ∧
        ∀ t, needed ≤ (b ++ t).length → (decode mode (b ++ t) address).Passes needed) ∧
    ∀ (stream : List UInt8) (supplied : Nat),
      Incremental.run mode stream address 15 supplied = some (decode mode stream address) := by
  constructor
  · intro b a needed available h
    obtain ⟨havailable, hlt, hmax⟩ := truncated_bounds h
    exact ⟨havailable, hlt, hmax, fun t ht => decode_append_of_lt_needed h ht,
      fun t ht => passes_of_needed_le h ht⟩
  · intro stream supplied
    exact Incremental.run_eq_some (Nat.le_add_left maxLength supplied)

theorem truncation_sound_mov :
    decode .real [0xB8] 0x7C00 = .error ⟨0x7C00, .truncated 3 1⟩ ∧
      decode .real ([0xB8] ++ [0x34]) 0x7C00 = .error ⟨0x7C00, .truncated 3 1⟩ ∧
      (decode .real ([0xB8] ++ [0x34, 0x12]) 0x7C00).Passes 3 ∧
      Incremental.run .real [0x2E, 0x81, 0x87, 0x34, 0x12, 0x78, 0x56, 0x90] 0x7C00 15 0 =
        some (decode .real [0x2E, 0x81, 0x87, 0x34, 0x12, 0x78, 0x56, 0x90] 0x7C00) := by
  have hmov : decode .real [0xB8] 0x7C00 = .error ⟨0x7C00, .truncated 3 1⟩ := rfl
  obtain ⟨hreport, hreader⟩ := truncation_sound .real 0x7C00
  obtain ⟨-, -, -, hfewer, henough⟩ := hreport _ _ _ _ hmov
  exact ⟨hmov, hfewer [0x34] (by decide), henough [0x34, 0x12] (by decide), hreader _ 0⟩

end X86Disassembly
