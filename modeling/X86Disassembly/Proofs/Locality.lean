import X86Disassembly.Proofs.Reading

/-!
# Locality of decoding

Decoding looks at no byte beyond those it accounts for. An outcome other than a truncation stays the
same whatever bytes follow, and an instruction is found in its own bytes but in no shorter start of
them: the encodings of instructions are free of prefixes.
-/

namespace X86Disassembly

/-- The bytes ended before the instruction did. -/
def Outcome.isTruncated : Outcome → Bool
  | .error ⟨_, .truncated _ _⟩ => true
  | _ => false

namespace Fetch

variable {α : Type}

/-- A plan that stops for another reason than missing bytes stops whatever follows. -/
lemma Halts.extend {plan : Fetch α} {taken rest : List UInt8} {result : Except Fault α}
    (h : plan.Halts taken rest result)
    (complete : ∀ needed available, result ≠ .error (.truncated needed available))
    (more : List UInt8) : plan.Halts taken more result := by
  cases h with
  | done value => exact .done value
  | undefined => exact .undefined
  | overlong => exact .overlong
  | full h => exact .full h
  | short room h => exact absurd rfl (complete _ _)

end Fetch

lemma Decode.readBody_eq_take (mode : Mode) :
    ∃ next : Vector UInt8 1 → Fetch Body, Decode.readBody mode = .take 1 next :=
  ⟨_, rfl⟩

lemma Decode.one_le_length_of_leads {mode : Mode} {read : List UInt8} {body : Body}
    (h : (Decode.readBody mode).Leads read (.done body)) : 1 ≤ read.length := by
  obtain ⟨next, hnext⟩ := Decode.readBody_eq_take mode
  rw [hnext] at h
  cases h with
  | take bytes _ =>
    rw [List.length_append, Vector.length_toList]
    omega

/-- What is decoded without a truncation is decoded alike with more bytes behind it. -/
theorem decode_append {mode : Mode} {address : UInt32} {b : List UInt8}
    (h : (decode mode b address).isTruncated = false) (t : List UInt8) :
    decode mode (b ++ t) address = decode mode b address := by
  obtain ⟨read, rest, left, result, rfl, hread, hhalt, room, heq⟩ :=
    exists_decode_eq mode b address
  rw [heq] at h ⊢
  have complete : ∀ needed available, result ≠ .error (.truncated needed available) := by
    rintro needed available rfl
    cases h
  rw [List.append_assoc]
  exact decode_of_leads hread (hhalt.extend complete (rest ++ t)) room address

/-- The first bytes of an instruction are a truncated instruction. -/
theorem decode_take_of_lt {mode : Mode} {address : UInt32} {read : List UInt8} {left : Fetch Body}
    (hread : (Decode.readBody mode).Leads read left) (room : read.length ≤ maxLength) {k : Nat}
    (hk : k < read.length) :
    ∃ needed available,
      decode mode (read.take k) address = .error ⟨address, .truncated needed available⟩ ∧
        available ≤ k ∧ k < needed ∧ needed ≤ read.length := by
  obtain ⟨count, next, start, hstart, hpre, hle, hlt, hend⟩ := hread.exists_request hk
  have htake : read.take k = start ++ (read.take k).drop start.length := by
    have hpre' : start <+: read.take k := by
      rw [List.prefix_take_iff]
      exact ⟨hpre, hle⟩
    obtain ⟨t, ht⟩ := hpre'
    rw [← ht, List.drop_left]
  have hshort : ((read.take k).drop start.length).length < count := by
    rw [List.length_drop, List.length_take]
    omega
  refine ⟨start.length + count, start.length, ?_, hle, hlt, hend⟩
  rw [htake]
  exact decode_of_leads hstart (.short (by omega) hshort) (by omega) address

/-- Decoding is local and free of prefixes: outcomes other than a truncation do not depend on the
bytes that follow, and an instruction is decoded from its own bytes, while each shorter start of
them is truncated. -/
theorem decode_local_and_prefix_free (mode : Mode) (address : UInt32) (b : List UInt8) :
    ((decode mode b address).isTruncated = false →
      ∀ t, decode mode (b ++ t) address = decode mode b address) ∧
    ∀ i, decode mode b address = .ok i →
      1 ≤ i.length ∧ i.length ≤ min maxLength b.length ∧
      decode mode (b.take i.length) address = .ok i ∧
      ∀ k, k < i.length → ∃ needed available,
        decode mode (b.take k) address = .error ⟨address, .truncated needed available⟩ ∧
          available ≤ k ∧ k < needed ∧ needed ≤ i.length := by
  refine ⟨fun h t => decode_append h t, ?_⟩
  intro i hi
  obtain ⟨read, rest, body, rfl, hread, room, rfl⟩ := decode_eq_ok_iff.mp hi
  dsimp only
  refine ⟨Decode.one_le_length_of_leads hread, ?_, ?_, ?_⟩
  · rw [List.length_append]
    omega
  · rw [List.take_left]
    exact decode_eq_ok_iff.mpr ⟨read, [], body, (List.append_nil read).symm, hread, room, rfl⟩
  · intro k hk
    rw [List.take_append_of_le_length (by omega)]
    exact decode_take_of_lt hread room hk

theorem decode_local_and_prefix_free_mov :
    ∃ i, decode .real [0xB8, 0x34, 0x12] 0x7C00 = .ok i ∧ i.length = 3 ∧
      decode .real ([0xB8, 0x34, 0x12] ++ [0x90]) 0x7C00 =
        decode .real [0xB8, 0x34, 0x12] 0x7C00 ∧
      ∃ needed available, decode .real ([0xB8, 0x34, 0x12].take 2) 0x7C00 =
        .error ⟨0x7C00, .truncated needed available⟩ := by
  have h := decode_local_and_prefix_free .real 0x7C00 [0xB8, 0x34, 0x12]
  refine ⟨_, rfl, rfl, h.1 rfl [0x90], ?_⟩
  obtain ⟨-, -, -, hshort⟩ := h.2 _ rfl
  obtain ⟨needed, available, heq, -⟩ := hshort 2 (by decide)
  exact ⟨needed, available, heq⟩

end X86Disassembly
