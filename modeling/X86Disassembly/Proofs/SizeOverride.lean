import X86Disassembly.Proofs.PrefixSummary

/-!
# Size overrides

A mode has two sizes, and a prefix switches each of them to the other one. Code behind such a prefix
is decoded as in the mode with the switched size, only that the prefix counts as one more byte.
-/

namespace X86Disassembly

lemma Prefixes.of_cons_flag {m : Prefix} (hsegment : m.segment? = none)
    (hrepetition : m.repetition? = none) (given : List Prefix) :
    Prefixes.of (m :: given) = (Prefixes.of given).add m := by
  cases m with
  | segment s => cases hsegment
  | repetition r => cases hrepetition
  | lock => simp [Prefixes.of, Prefixes.add, Prefix.segment?, Prefix.repetition?]
  | operandSize => simp [Prefixes.of, Prefixes.add, Prefix.segment?, Prefix.repetition?]
  | addressSize => simp [Prefixes.of, Prefixes.add, Prefix.segment?, Prefix.repetition?]

lemma Mode.summary_cons_flag {mode : Mode} {byte : UInt8} {m : Prefix}
    (hm : mode.processor.modifier? byte = some m) (hsegment : m.segment? = none)
    (hrepetition : m.repetition? = none) (prefixes : List UInt8) :
    mode.summary (byte :: prefixes) = (mode.summary prefixes).add m := by
  rw [summary, List.filterMap_cons_some hm, Prefixes.of_cons_flag hsegment hrepetition]
  rfl

lemma decode_cons_of_startFields_eq {p : Processor} {s s' : OperandSize} {z z' : AddressSize}
    {byte : UInt8} (hbyte : (p.modifier? byte).isSome) {b : List UInt8}
    (h : Decode.startFields ⟨p, s, z⟩
        (Mode.summary ⟨p, s, z⟩ (byte :: Mode.leadingPrefixes ⟨p, s, z⟩ b)) =
      Decode.startFields ⟨p, s', z'⟩
        (Mode.summary ⟨p, s, z⟩ (Mode.leadingPrefixes ⟨p, s, z⟩ b))) (address : UInt32) :
    decode ⟨p, s, z⟩ (byte :: b) address = (decode ⟨p, s', z'⟩ b address).behind byte := by
  obtain ⟨rest, hb, hprefixes, hrest⟩ := Mode.exists_leadingPrefixes_append ⟨p, s, z⟩ b
  generalize Mode.leadingPrefixes ⟨p, s, z⟩ b = prefixes at h hb hprefixes
  subst hb
  rw [← List.cons_append,
    decode_prefixes_append ⟨p, s, z⟩ (List.forall_mem_cons.mpr ⟨hbyte, hprefixes⟩) hrest,
    decode_prefixes_append ⟨p, s', z'⟩ hprefixes hrest, h]
  by_cases hroom : prefixes.length < maxLength
  · exact Fetch.resume_cons_eq_behind _ address hroom rest byte
  · -- Prefixes fill all the room in both modes.
    have hlong : maxLength ≤ (byte :: prefixes).length := by
      rw [List.length_cons]
      omega
    rw [Decode.readUnprefixed, Decode.readUnprefixed, Fetch.resume_byte_bind,
      Fetch.resume_byte_bind, if_pos hlong, if_pos (Nat.not_lt.mp hroom)]
    rfl

/-- In code of the 386, an operand-size prefix before prefixes without another one is the mode with
the other operand size, and an address-size prefix is the mode with the other address size. -/
theorem decode_sizeOverride (s : OperandSize) (z : AddressSize) (address : UInt32)
    (b : List UInt8) :
    (0x66 ∉ Mode.leadingPrefixes ⟨.i386, s, z⟩ b →
      decode ⟨.i386, s, z⟩ (0x66 :: b) address =
        (decode ⟨.i386, s.toggled, z⟩ b address).behind 0x66) ∧
    (0x67 ∉ Mode.leadingPrefixes ⟨.i386, s, z⟩ b →
      decode ⟨.i386, s, z⟩ (0x67 :: b) address =
        (decode ⟨.i386, s, z.toggled⟩ b address).behind 0x67) := by
  obtain ⟨-, -, hprefixes, -⟩ := Mode.exists_leadingPrefixes_append ⟨.i386, s, z⟩ b
  constructor
  · intro hnone
    apply decode_cons_of_startFields_eq rfl
    rw [← Mode.switch_summary_iff .operandSize hprefixes, Bool.not_eq_true] at hnone
    rw [Mode.summary_cons_flag (m := .operandSize) rfl rfl rfl]
    funext modrm
    simp only [Decode.startFields, Prefixes.add, hnone]
    rfl
  · intro hnone
    apply decode_cons_of_startFields_eq rfl
    rw [← Mode.switch_summary_iff .addressSize hprefixes, Bool.not_eq_true] at hnone
    rw [Mode.summary_cons_flag (m := .addressSize) rfl rfl rfl]
    funext modrm
    simp only [Decode.startFields, Prefixes.add, hnone]
    rfl

/-- An addition to memory with all its parts, behind a prefix for either size: the operand is then
four bytes wide, or the address has a scaled index. -/
theorem decode_sizeOverride_add :
    (∃ i, decode .real [0x66, 0x81, 0x44, 0x8B, 0xEF, 0xBE, 0xAD, 0xDE] 0x7C00 = .ok i ∧
      i.length = 8 ∧ i.fields.immediate = 0xDEADBEEF) ∧
    ∃ i, decode .real [0x67, 0x81, 0x44, 0x8B, 0x10, 0xAD, 0xDE] 0x7C00 = .ok i ∧
      i.length = 7 ∧ i.fields.displacement = 0x10 ∧ i.fields.immediate = 0xDEAD := by
  have hoperand := (decode_sizeOverride .bits16 .bits16 0x7C00
    [0x81, 0x44, 0x8B, 0xEF, 0xBE, 0xAD, 0xDE]).1 (by decide +kernel)
  have haddress := (decode_sizeOverride .bits16 .bits16 0x7C00
    [0x81, 0x44, 0x8B, 0x10, 0xAD, 0xDE]).2 (by decide +kernel)
  exact ⟨⟨_, hoperand, rfl, rfl⟩, ⟨_, haddress, rfl, rfl, rfl⟩⟩

end X86Disassembly
