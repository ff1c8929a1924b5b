import X86Disassembly.Proofs.LittleEndian
import X86Disassembly.Proofs.OpcodeReading
import X86Disassembly.Proofs.OperandReading

/-!
# Decoding and encoding

Decoding undoes encoding: the bytes of an encoding are decoded to its instruction. Encoding undoes
decoding: every instruction that is decoded is the instruction of an encoding, and the bytes that it
was decoded from can be written down again from its fields.
-/

namespace X86Disassembly

namespace Encoding

variable {mode : Mode} (e : Encoding mode)

lemma leads_body (hroom : e.prefixes.length < maxLength) :
    (Decode.readBody mode).Leads e.bytes (.done e.body) := by
  have hopcode := Decode.leads_readOpcode e.isSome_modifier? e.lookup?_opcode hroom []
  have hform : (Decode.readForm e.entry).Leads e.modrm (.done (e.form, e.modrmByte)) :=
    Decode.leads_readForm_iff.mpr ⟨e.length_modrm, rfl, e.form?_entry⟩
  have hoperands := e.leads_operands.bind fun fields => .done { e.body with fields }
  rw [bytes, List.append_assoc]
  exact hopcode.followed (hform.followed hoperands)

lemma opcode_ne_nil : e.opcode ≠ [] := by
  intro hnil
  have hentry := e.lookup?_opcode
  rw [hnil] at hentry
  cases hentry

/-- The bytes of an encoding decode to its instruction whatever follows them, unless they are more
than an instruction may have. -/
theorem decode_bytes_append (rest : List UInt8) (address : UInt32) :
    decode mode (e.bytes ++ rest) address =
      if e.bytes.length ≤ maxLength then .ok (e.instruction address)
      else .error ⟨address, .tooLong maxLength⟩ := by
  by_cases hprefixes : e.prefixes.length < maxLength
  · have hlead := e.leads_body hprefixes
    by_cases hlength : e.bytes.length ≤ maxLength
    · rw [if_pos hlength]
      exact decode_of_leads hlead (.done e.body) hlength address
    · rw [if_neg hlength]
      exact decode_tooLong hlead (Nat.lt_of_not_le hlength) rest address
  · -- The prefixes alone use up the room, and no opcode is read.
    have hfirst : (e.prefixes.take maxLength).length = maxLength :=
      List.length_take_of_le (Nat.not_lt.mp hprefixes)
    have hmodifier : ∀ b ∈ e.prefixes.take maxLength, (mode.processor.modifier? b).isSome :=
      fun b hb => e.isSome_modifier? b (List.mem_of_mem_take hb)
    have hlead := Decode.leads_readOpcode_overlong hmodifier {}
    rw [hfirst] at hlead
    have hlength : ¬e.bytes.length ≤ maxLength := by
      have hopcode := List.length_pos_iff.mpr e.opcode_ne_nil
      simp only [bytes, List.length_append]
      omega
    have hsplit : e.bytes ++ rest = e.prefixes.take maxLength ++
        (e.prefixes.drop maxLength ++ e.opcode ++ e.modrm ++ e.payload.bytes ++ rest) := by
      simp only [bytes, ← List.append_assoc, List.take_append_drop]
    rw [if_neg hlength, hsplit]
    exact decode_of_leads (hlead.bind _) .overlong (Nat.le_of_eq hfirst) address

theorem decode_bytes_append_lockedAdd :
    ∃ e : Encoding .flat,
      e.bytes = [0xF0, 0x81, 0x84, 0x8B, 0x78, 0x56, 0x34, 0x12, 0xEF, 0xBE, 0xAD, 0xDE] ∧
        e.fields.displacement = 0x12345678 ∧ e.fields.immediate = 0xDEADBEEF ∧
        decode .flat (e.bytes ++ [0x90]) 0x1000 = .ok (e.instruction 0x1000) := by
  let e : Encoding .flat :=
    { prefixes := [0xF0]
      opcode := [0x81]
      entry := _
      modrm := [0x84]
      form := _
      payload := ⟨[0x8B], [0x78, 0x56, 0x34, 0x12], [0xEF, 0xBE, 0xAD, 0xDE], []⟩
      isSome_modifier? := by decide +kernel
      lookup?_opcode := rfl
      length_modrm := rfl
      form?_entry := rfl
      reg_lt := by decide +kernel
      length_part := fun part => by cases part <;> rfl }
  exact ⟨e, rfl, rfl, rfl, e.decode_bytes_append [0x90] 0x1000⟩

end Encoding

/-! ## Encoding undoes decoding -/

lemma Form.width_le (f : Form) (operandSize : OperandSize) (size : AddressSize) (m : ModRM)
    (sib : Sib) (part : Part) : f.width operandSize size m sib part ≤ 12 := by
  have hfirst := (f.operands.first.instantiate operandSize).width_le size m sib part
  have hsecond := (f.operands.second.instantiate operandSize).width_le size m sib part
  have hthird := (f.operands.third.instantiate operandSize).width_le size m sib part
  simp only [width, operandsAt, Slots.map, Slots.toList, List.map_cons, List.map_nil,
    List.sum_cons, List.sum_nil]
  omega

lemma Payload.exists_cut (form : Form) (operandSize : OperandSize) (size : AddressSize) (m : ModRM)
    {l : List UInt8} (hl : 48 ≤ l.length) :
    ∃ x : Payload, x.bytes <+: l ∧ ∀ part, (x.part part).length =
      form.width operandSize size m (Sib.ofByte x.sibByte) part := by
  have hcut : ∀ (l : List UInt8) (n : Nat) (sib : Sib) (part : Part), 12 + n ≤ l.length →
      ∃ first rest : List UInt8, l = first ++ rest ∧ n ≤ rest.length ∧
        first.length = form.width operandSize size m sib part := by
    intro l n sib part hn
    have hwidth := form.width_le operandSize size m sib part
    refine ⟨l.take _, l.drop _, (List.take_append_drop _ l).symm, ?_, List.length_take_of_le ?_⟩
    · rw [List.length_drop]
      omega
    · omega
  obtain ⟨sib, l, rfl, hl, hsib⟩ := hcut l 36 (Sib.ofByte 0) .sib hl
  obtain ⟨displacement, l, rfl, hl, hdisplacement⟩ :=
    hcut l 24 (Sib.ofByte (sib.headD 0)) .displacement hl
  obtain ⟨immediate, l, rfl, hl, himmediate⟩ := hcut l 12 (Sib.ofByte (sib.headD 0)) .immediate hl
  obtain ⟨immediate2, l, rfl, -, himmediate2⟩ := hcut l 0 (Sib.ofByte (sib.headD 0)) .immediate2 hl
  refine ⟨⟨sib, displacement, immediate, immediate2⟩, ⟨l, ?_⟩, ?_⟩
  · simp [Payload.bytes]
  · intro part
    cases part with
    | sib => exact hsib
    | displacement => exact hdisplacement
    | immediate => exact himmediate
    | immediate2 => exact himmediate2

lemma exists_encoding_of_form {mode : Mode} {prefixes opcode modrm : List UInt8} {entry : Entry}
    {form : Form} (hprefixes : ∀ b ∈ prefixes, (mode.processor.modifier? b).isSome)
    (hopcode : mode.processor.lookup? opcode = some entry)
    (hmodrm : modrm.length = if entry.hasModRM then 1 else 0)
    (hform : entry.form? (modrm.headD 0) = some form)
    (hreg : .regSegment ∈ form.sources →
      (ModRM.ofByte (modrm.headD 0)).reg.val < mode.processor.segmentRegisters)
    (more : List UInt8) :
    ∃ e : Encoding mode, e.prefixes = prefixes ∧ prefixes ++ opcode ++ modrm <+: e.bytes ∧
      e.bytes <+: prefixes ++ opcode ++ modrm ++ more ++ List.replicate 48 0 := by
  obtain ⟨x, ⟨l, hx⟩, hwidth⟩ := Payload.exists_cut form (mode.operandSizeAfter prefixes)
    (mode.addressSizeAfter prefixes) (ModRM.ofByte (modrm.headD 0))
    (l := more ++ List.replicate 48 0) (by simp)
  refine ⟨⟨prefixes, opcode, entry, modrm, form, x, hprefixes, hopcode, hmodrm, hform, hreg,
    hwidth⟩, rfl, List.prefix_append _ _, l, ?_⟩
  simp only [Encoding.bytes, List.append_assoc, hx]

/-- Whatever is read as an instruction is an encoding. The bytes are cut at the places where an
encoding has its parts; this is an encoding, which is read as well, and there is only one way to
read the bytes. -/
lemma exists_encoding_of_leads {mode : Mode} {read : List UInt8} {body : Body}
    (h : (Decode.readBody mode).Leads read (.done body)) :
    ∃ e : Encoding mode, read = e.bytes ∧ body = e.body := by
  obtain ⟨first, rest, ⟨seen, entry⟩, rfl, hopcode, hrest⟩ := Fetch.leads_bind_done_iff.mp h
  obtain ⟨modrm, more, ⟨form, b⟩, rfl, hform, hmore⟩ := Fetch.leads_bind_done_iff.mp hrest
  obtain ⟨prefixes, opcode, rfl, hprefixes, hentry, hroom, rfl⟩ :=
    Decode.exists_of_leads_readOpcode [] hopcode
  obtain ⟨hlength, rfl, hrow⟩ := Decode.leads_readForm_iff.mp hform
  obtain ⟨operands, last, fields, -, hoperands, -⟩ := Fetch.leads_bind_done_iff.mp hmore
  have hreg := Decode.reg_lt_of_leads_foldlM hoperands
  obtain ⟨e, rfl, -, hwhole⟩ :=
    exists_encoding_of_form hprefixes hentry hlength hrow hreg more
  rw [List.append_assoc _ modrm] at hwhole
  obtain ⟨hbytes, hbody⟩ := h.eq_of_prefix (e.leads_body hroom) (List.prefix_append _ _) hwhole
  exact ⟨e, hbytes, hbody⟩

lemma exists_instruction_of_decode {mode : Mode} {b : List UInt8} {address : UInt32}
    {i : Instruction} (h : decode mode b address = .ok i) :
    ∃ (e : Encoding mode) (rest : List UInt8), b = e.bytes ++ rest ∧ i = e.instruction address := by
  obtain ⟨read, rest, body, rfl, hread, -, rfl⟩ := decode_eq_ok_iff.mp h
  obtain ⟨e, rfl, rfl⟩ := exists_encoding_of_leads hread
  exact ⟨e, rest, rfl, rfl⟩

/-- The number that a part of the code holds. -/
def Fields.number (f : Fields) : Part → UInt32
  | .sib => f.sibByte.toUInt32
  | .displacement => f.displacement
  | .immediate => f.immediate
  | .immediate2 => f.immediate2

/-- The bytes after an opcode, written down from the fields of the instruction. -/
def Fields.written (f : Fields) (entry : Entry) (form : Form) : List UInt8 :=
  let width := form.width f.operandSize f.addressSize f.modrm f.sib
  (if entry.hasModRM then [f.modrmByte] else []) ++
    (if .rm ∈ form.sources ∧ f.modrm.hasSib f.addressSize then [f.sibByte] else []) ++
    LittleEndian.bytes (width .displacement) f.displacement.toNat ++
    LittleEndian.bytes (width .immediate) f.immediate.toNat ++
    LittleEndian.bytes (width .immediate2) f.immediate2.toNat

namespace Encoding

variable {mode : Mode} (e : Encoding mode)

lemma modrm_eq : e.modrm = if e.entry.hasModRM then [e.modrmByte] else [] := by
  have hlength := e.length_modrm
  cases hhas : e.entry.hasModRM with
  | true =>
    rw [hhas] at hlength
    obtain ⟨b, hb⟩ := List.length_eq_one_iff.mp hlength
    rw [modrmByte, hb]
    rfl
  | false =>
    rw [hhas] at hlength
    exact List.eq_nil_of_length_eq_zero hlength

lemma takeWhile_bytes_append (rest : List UInt8) :
    (e.bytes ++ rest).takeWhile (fun c => (mode.processor.modifier? c).isSome) = e.prefixes := by
  have hopcode : ∀ l, (e.opcode ++ l).takeWhile (fun c => (mode.processor.modifier? c).isSome) =
      [] := by
    intro l
    rcases Processor.lookup?_eq_some_iff.mp e.lookup?_opcode with
      ⟨c, hc, hlead⟩ | ⟨d, c, hc, hlead, -⟩
    · simp [hc, Processor.modifier?, hlead]
    · simp [hc, Processor.modifier?, hlead]
  have hsplit : e.bytes ++ rest =
      e.prefixes ++ (e.opcode ++ (e.modrm ++ e.payload.bytes ++ rest)) := by
    simp only [bytes, List.append_assoc]
  rw [hsplit, List.takeWhile_append_of_pos e.isSome_modifier?, hopcode, List.append_nil]

lemma bytes_number (part : Part) :
    LittleEndian.bytes (e.payload.part part).length (e.fields.number part).toNat =
      e.payload.part part := by
  have hle := e.length_part_le part
  cases part with
  | sib =>
    have hsib := e.sib_eq
    simp only [Payload.part]
    split at hsib
    · rw [hsib]
      simp [LittleEndian.bytes, Fields.number, fields]
    · rw [hsib]
      rfl
  | displacement =>
    dsimp only [Fields.number, fields]
    split
    · exact LittleEndian.bytes_signExtended hle
    · exact LittleEndian.bytes_zeroExtended hle
  | immediate => exact LittleEndian.bytes_zeroExtended hle
  | immediate2 => exact LittleEndian.bytes_zeroExtended hle

lemma written_fields : e.fields.written e.entry e.form = e.modrm ++ e.payload.bytes := by
  have hdisplacement : LittleEndian.bytes (e.payload.part .displacement).length
      e.fields.displacement.toNat = e.payload.displacement := e.bytes_number .displacement
  have himmediate : LittleEndian.bytes (e.payload.part .immediate).length
      e.fields.immediate.toNat = e.payload.immediate := e.bytes_number .immediate
  have himmediate2 : LittleEndian.bytes (e.payload.part .immediate2).length
      e.fields.immediate2.toNat = e.payload.immediate2 := e.bytes_number .immediate2
  calc e.fields.written e.entry e.form
    _ = (if e.entry.hasModRM then [e.modrmByte] else []) ++
          (if .rm ∈ e.form.sources ∧
              (ModRM.ofByte e.modrmByte).hasSib (mode.addressSizeAfter e.prefixes) then
            [e.payload.sibByte] else []) ++
          LittleEndian.bytes (e.payload.part .displacement).length e.fields.displacement.toNat ++
          LittleEndian.bytes (e.payload.part .immediate).length e.fields.immediate.toNat ++
          LittleEndian.bytes (e.payload.part .immediate2).length e.fields.immediate2.toNat := by
      rw [e.length_part, e.length_part, e.length_part]
      rfl
    _ = e.modrm ++ e.payload.sib ++ e.payload.displacement ++ e.payload.immediate ++
          e.payload.immediate2 := by
      rw [← e.modrm_eq, ← e.sib_eq, hdisplacement, himmediate, himmediate2]
    _ = e.modrm ++ e.payload.bytes := by
      rw [Payload.bytes]
      simp only [List.append_assoc]

end Encoding

/-- Every decoded instruction is the instruction of an encoding whose prefixes are all those that
the bytes start with, and the bytes that it takes are its prefixes, its opcode and what its fields
are written as. -/
theorem exists_encoding_of_decode {mode : Mode} {b : List UInt8} {address : UInt32}
    {i : Instruction} (h : decode mode b address = .ok i) :
    ∃ e : Encoding mode, i = e.instruction address ∧
      e.prefixes = b.takeWhile (fun c => (mode.processor.modifier? c).isSome) ∧
      ((∃ c, e.opcode = [c] ∧ mode.processor.lead c = .opcode e.entry) ∨
        ∃ c, e.opcode = [0x0F, c] ∧ mode.processor.lead 0x0F = .escape ∧
          e.entry = TwoByte.entry c) ∧
      b.take i.length = e.prefixes ++ e.opcode ++ i.fields.written e.entry e.form := by
  obtain ⟨read, rest, body, rfl, hread, -, rfl⟩ := decode_eq_ok_iff.mp h
  obtain ⟨e, rfl, rfl⟩ := exists_encoding_of_leads hread
  refine ⟨e, rfl, ?_, ?_, ?_⟩
  · exact (e.takeWhile_bytes_append rest).symm
  · rcases Processor.lookup?_eq_some_iff.mp e.lookup?_opcode with
      ⟨c, hc, hlead⟩ | ⟨d, c, hc, hlead, he⟩
    · exact .inl ⟨c, hc, hlead⟩
    · obtain rfl := Processor.eq_of_lead_eq_escape hlead
      exact .inr ⟨c, hc, hlead, he.symm⟩
  · dsimp only [Encoding.body]
    rw [List.take_left, e.written_fields, Encoding.bytes, List.append_assoc]

theorem exists_encoding_of_decode_add :
    ∃ (i : Instruction) (e : Encoding .flat),
      decode .flat [0xF0, 0x81, 0x84, 0x8B, 0x78, 0x56, 0x34, 0x12, 0xEF, 0xBE, 0xAD, 0xDE, 0x90]
        0x1000 = .ok i ∧
      i = e.instruction 0x1000 ∧ e.prefixes = [0xF0] ∧ i.length = 12 ∧
      [0xF0, 0x81, 0x84, 0x8B, 0x78, 0x56, 0x34, 0x12, 0xEF, 0xBE, 0xAD, 0xDE] =
        e.prefixes ++ e.opcode ++ i.fields.written e.entry e.form := by
  have hdecode : ∃ i, decode .flat
      [0xF0, 0x81, 0x84, 0x8B, 0x78, 0x56, 0x34, 0x12, 0xEF, 0xBE, 0xAD, 0xDE, 0x90]
      0x1000 = .ok i ∧ i.length = 12 := ⟨_, rfl, rfl⟩
  obtain ⟨i, hi, hlength⟩ := hdecode
  obtain ⟨e, he, hprefixes, -, hbytes⟩ := exists_encoding_of_decode hi
  rw [hlength] at hbytes
  exact ⟨i, e, hi, he, hprefixes, hlength, hbytes⟩

end X86Disassembly
