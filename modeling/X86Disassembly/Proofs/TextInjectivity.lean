import X86Disassembly.Proofs.EffectiveAddress

/-!
# Bytes behind a text

The text of an instruction loses no byte of its operands. Numbers are printed with as many digits as
were read, or with all that they need, so two instructions of the same prefixes, opcode, ModRM byte
and SIB byte that print alike were decoded from the same bytes.
-/

namespace X86Disassembly

namespace LittleEndian

lemma bytes_mod (count n : Nat) : bytes count (n % 256 ^ count) = bytes count n := by
  have hsplit := bytes_add_mul count (n % 256 ^ count) (n / 256 ^ count)
  rw [Nat.mod_add_div] at hsplit
  exact hsplit.symm

lemma mod_eq_of_le {count width n m : Nat} (h : n % 256 ^ count = m % 256 ^ count)
    (hle : width ≤ count) : n % 256 ^ width = m % 256 ^ width := by
  have hdvd : 256 ^ width ∣ 256 ^ count := Nat.pow_dvd_pow 256 hle
  rw [← Nat.mod_mod_of_dvd n hdvd, h, Nat.mod_mod_of_dvd m hdvd]

end LittleEndian

namespace Text

open LittleEndian

lemma pow_sixteen (count : Nat) : 16 ^ (2 * count) = 256 ^ count := by
  rw [Nat.pow_mul]

lemma mod_eq_of_hexConstant_eq {count : Nat} {v w : UInt32}
    (h : hexConstant count v = hexConstant count w) :
    v.toNat % 256 ^ count = w.toNat % 256 ^ count := by
  rw [← pow_sixteen]
  exact mod_eq_of_fixed_eq ((String.append_left_inj "h").mp h)

lemma memoryOperand_injective (size : OperandSize) (segment : Segment) :
    Function.Injective (memoryOperand size segment) := by
  intro x y h
  exact (String.append_right_inj _).mp ((String.append_left_inj "]").mp h)

lemma mod_eq_of_farPointer_eq {count n m : Nat} {v w : UInt32}
    (h : fixed .lower 4 n ++ ":" ++ hexConstant count v =
      fixed .lower 4 m ++ ":" ++ hexConstant count w) :
    n % 256 ^ 2 = m % 256 ^ 2 ∧ v.toNat % 256 ^ count = w.toNat % 256 ^ count := by
  have hsplit : ∀ k x, (fixed .lower 4 k ++ ":" ++ hexConstant count x).toList =
      hexDigits .lower 4 k ++ (":" ++ hexConstant count x).toList := by
    intro k x
    rw [String.append_assoc, String.toList_append, fixed, String.toList_ofList]
  have hlist := congrArg String.toList h
  rw [hsplit, hsplit] at hlist
  have hlength : (hexDigits .lower 4 n).length = (hexDigits .lower 4 m).length := by
    rw [length_hexDigits, length_hexDigits]
  obtain ⟨hselector, hoffset⟩ := List.append_inj hlist hlength
  have hoffset := (String.append_right_inj ":").mp (String.toList_inj.mp hoffset)
  refine ⟨?_, mod_eq_of_hexConstant_eq hoffset⟩
  exact mod_eq_of_hexDigits_eq hselector

lemma takeWhile_ne_comma {l : List Char} (h : ',' ∉ l) (rest : List Char) :
    (l ++ ',' :: rest).takeWhile (· != ',') = l := by
  have hne : ∀ c ∈ l, (c != ',') = true := by
    intro c hc
    rw [bne_iff_ne]
    rintro rfl
    exact h hc
  simp [List.takeWhile_append_of_pos hne]

lemma eq_of_intercalate_eq {α : Type} {f g : α → String} {l : List α}
    (hf : ∀ a ∈ l, ',' ∉ (f a).toList) (hg : ∀ a ∈ l, ',' ∉ (g a).toList)
    (h : ", ".intercalate (l.map f) = ", ".intercalate (l.map g)) : ∀ a ∈ l, f a = g a := by
  induction l with
  | nil => simp
  | cons a l ih =>
    obtain ⟨hfa, hf⟩ := List.forall_mem_cons.mp hf
    obtain ⟨hga, hg⟩ := List.forall_mem_cons.mp hg
    cases l with
    | nil =>
      rw [List.forall_mem_singleton]
      simpa using h
    | cons b l =>
      simp only [List.map_cons, String.intercalate_cons_cons] at h
      have hfirst : f a = g a := by
        have htake := congrArg (fun s => s.toList.takeWhile (· != ',')) h
        simp only [String.toList_append, List.append_assoc] at htake
        have hcomma : ", ".toList = [',', ' '] := rfl
        simp only [hcomma, List.cons_append, takeWhile_ne_comma hfa,
          takeWhile_ne_comma hga] at htake
        exact String.toList_inj.mp htake
      rw [hfirst, String.append_right_inj] at h
      exact List.forall_mem_cons.mpr ⟨hfirst, ih hf hg h⟩

end Text

/-! ## Instructions that differ in their numbers -/

def Instruction.withNumbers (i : Instruction) (displacement immediate immediate2 : UInt32) :
    Instruction :=
  { i with fields := { i.fields with displacement, immediate, immediate2 } }

namespace Instruction

variable {i : Instruction} {displacement immediate immediate2 : UInt32}

/-- Words and operands do not depend on the numbers, and each operand is known from the text. -/
lemma operandText_eq_of_text_eq (hi : i.Printable)
    (hj : (i.withNumbers displacement immediate immediate2).Printable)
    (h : i.text = (i.withNumbers displacement immediate immediate2).text) {o : Operand}
    (ho : o ∈ i.printedOperands) :
    i.operandText o = (i.withNumbers displacement immediate immediate2).operandText o := by
  have hcomma : ∀ s : Source, s.letter ',' = false := by
    intro s
    unfold Source.letter
    split <;> rfl
  have hfree : ∀ j : Instruction, j.Printable → ∀ o ∈ j.printedOperands,
      ',' ∉ (j.operandText o).toList := by
    intro j hj o ho
    exact Text.not_mem_of_all (hcomma o.source) (hj.trimmed_of_mem_printedOperands ho).all
  have hne : i.printedOperands ≠ [] := List.ne_nil_of_mem ho
  have hne' : (i.withNumbers displacement immediate immediate2).printedOperands ≠ [] := hne
  have hoperands : i.operandsText =
      (i.withNumbers displacement immediate immediate2).operandsText :=
    (String.append_right_inj (i.prefixText ++ i.mnemonicText)).mp h
  rw [operandsText_of_ne_nil hne, operandsText_of_ne_nil hne', String.append_right_inj]
    at hoperands
  have hright : ∀ o ∈ i.printedOperands,
      ',' ∉ ((i.withNumbers displacement immediate immediate2).operandText o).toList := hfree _ hj
  exact Text.eq_of_intercalate_eq (hfree i hi) hright hoperands o ho

lemma mod_eq_of_branchTarget_eq
    (h : Text.hexConstant i.branchTargetBytes i.branchTarget =
      Text.hexConstant i.branchTargetBytes
        (i.withNumbers displacement immediate immediate2).branchTarget) :
    i.fields.displacement.toNat % 256 ^ i.branchTargetBytes =
      displacement.toNat % 256 ^ i.branchTargetBytes := by
  have hmod := Text.mod_eq_of_hexConstant_eq h
  have htarget : (i.withNumbers displacement immediate immediate2).branchTarget =
      i.nextAddress + displacement := rfl
  rw [htarget, branchTarget, UInt32.toNat_add, UInt32.toNat_add] at hmod
  have hwidth : i.branchTargetBytes = 2 ∨ i.branchTargetBytes = 4 := by
    unfold branchTargetBytes
    split
    · exact .inl rfl
    · exact .inr rfl
  rcases hwidth with hwidth | hwidth
  · rw [hwidth] at hmod ⊢
    omega
  · rw [hwidth] at hmod ⊢
    omega

end Instruction

lemma relative_of_mem_listedForms : ∀ f ∈ listedForms, ∀ t ∈ f.operands.toList,
    t.source = .relative → t.size = none ∨ t.size = some .bits8 := by
  decide +kernel

lemma ModRM.displacementBytes_le_bytes (m : ModRM) (size : AddressSize) (sib : Sib) :
    m.displacementBytes size sib ≤ size.bytes := by
  have htable : ∀ (mode : Fin 4) (rm base : Fin 8),
      ModRM.displacementBytes ⟨mode, 0, rm⟩ size ⟨0, 0, base⟩ ≤ size.bytes := by
    cases size <;> decide +kernel
  exact htable m.mode m.rm sib.base

lemma Payload.eq_of_part_eq {x y : Payload} (h : ∀ part, x.part part = y.part part) : x = y := by
  cases x
  cases y
  rw [Payload.mk.injEq]
  exact ⟨h .sib, h .displacement, h .immediate, h .immediate2⟩

namespace Encoding

variable {mode : Mode} {e e' : Encoding mode}

lemma immediateBytes_le_branchTargetBytes {address : UInt32} {o : Operand}
    (ho : o ∈ (e.instruction address).operands.toList) (hs : o.source = .relative) :
    o.size.immediateBytes ≤ (e.instruction address).branchTargetBytes := by
  obtain ⟨t, ht, rfl⟩ : ∃ t ∈ e.form.operands.toList,
      t.instantiate (mode.operandSizeAfter e.prefixes) = o := List.mem_map.mp ho
  have hoperand : (e.instruction address).fields.operandSize = mode.operandSizeAfter e.prefixes :=
    rfl
  rw [Instruction.branchTargetBytes, hoperand]
  dsimp only [Template.instantiate]
  rcases relative_of_mem_listedForms _ e.form_mem_listedForms t ht hs with hsize | hsize
  · rw [hsize, Option.getD_none]
    cases mode.operandSizeAfter e.prefixes <;> decide
  · rw [hsize, Option.getD_some]
    split <;> decide

/-- Two encodings that agree on everything but displacement and immediates. -/
structure Twin (e e' : Encoding mode) : Prop where
  prefixes : e.prefixes = e'.prefixes
  opcode : e.opcode = e'.opcode
  modrmByte : e.modrmByte = e'.modrmByte
  sibByte : e.payload.sibByte = e'.payload.sibByte

namespace Twin

variable (h : Twin e e') (address : UInt32)
include h

lemma entry : e.entry = e'.entry := by
  have hentry := e.lookup?_opcode
  rw [h.opcode, e'.lookup?_opcode] at hentry
  exact (Option.some.inj hentry).symm

lemma form : e.form = e'.form := by
  have hform : e.entry.form? e.modrmByte = some e.form := e.form?_entry
  have hform' : e'.entry.form? e'.modrmByte = some e'.form := e'.form?_entry
  rw [h.entry, h.modrmByte, hform'] at hform
  exact (Option.some.inj hform).symm

lemma modrm : e.modrm = e'.modrm := by
  rw [e.modrm_eq, e'.modrm_eq, h.entry, h.modrmByte]

lemma length_part (part : Part) :
    (e.payload.part part).length = (e'.payload.part part).length := by
  have hmodrm : e.modrm.headD 0 = e'.modrm.headD 0 := h.modrmByte
  rw [e.length_part, e'.length_part, h.form, h.prefixes, hmodrm, h.sibByte]

lemma length_bytes : e.bytes.length = e'.bytes.length := by
  have hsib := h.length_part .sib
  have hdisplacement := h.length_part .displacement
  have himmediate := h.length_part .immediate
  have himmediate2 := h.length_part .immediate2
  simp only [Payload.part] at hsib hdisplacement himmediate himmediate2
  simp only [bytes, Payload.bytes, List.length_append, h.prefixes, h.opcode, h.modrm, hsib,
    hdisplacement, himmediate, himmediate2]

lemma instruction_eq : e'.instruction address = (e.instruction address).withNumbers
    e'.fields.displacement e'.fields.immediate e'.fields.immediate2 := by
  simp only [instruction, body, fields, onStack, Instruction.withNumbers, h.prefixes, h.form,
    h.modrmByte, h.sibByte, h.length_bytes]
  rfl

lemma fields_eq : e'.fields = { e.fields with
    displacement := e'.fields.displacement, immediate := e'.fields.immediate,
    immediate2 := e'.fields.immediate2 } :=
  congrArg (·.fields) (h.instruction_eq 0)

lemma part_eq_of_mod_eq {part : Part}
    (hmod : (e.fields.number part).toNat % 256 ^ (e.payload.part part).length =
      (e'.fields.number part).toNat % 256 ^ (e.payload.part part).length) :
    e.payload.part part = e'.payload.part part := by
  have hbytes := e.bytes_number part
  have hbytes' := e'.bytes_number part
  rw [← h.length_part part, ← LittleEndian.bytes_mod] at hbytes'
  rw [← LittleEndian.bytes_mod, hmod, hbytes'] at hbytes
  exact hbytes.symm

lemma mod_eq_of_expression_eq (hrm : .rm ∈ e.form.sources)
    (hmemory : e.fields.modrm.isRegister = false) {size : OperandSize}
    (htext : (MemoryExpression.ofFields e.fields size).text =
      (MemoryExpression.ofFields e'.fields size).text) :
    e.fields.displacement.toNat % 256 ^ e.fields.addressSize.bytes =
      e'.fields.displacement.toNat % 256 ^ e.fields.addressSize.bytes := by
  let r : RegisterFile := ⟨0, 0, 0, 0, 0, 0, 0, 0⟩
  have hrm' : .rm ∈ e'.form.sources := h.form ▸ hrm
  have hmemory' : e'.fields.modrm.isRegister = false := by
    rw [h.fields_eq]
    exact hmemory
  have hsize : e'.fields.addressSize = e.fields.addressSize := by
    rw [h.fields_eq]
  have hsum : r.sum e'.fields = r.sum e.fields := by
    rw [h.fields_eq]
    rfl
  obtain ⟨n, hn, hmod⟩ := e.exists_evaluate?_ofFields hrm hmemory r size
  obtain ⟨n', hn', hmod'⟩ := e'.exists_evaluate?_ofFields hrm' hmemory' r size
  rw [htext, hn'] at hn
  obtain rfl := Option.some.inj hn
  rw [hsize, hsum, hmod, ← e.signedDisplacement_fields hrm, ← e'.signedDisplacement_fields hrm',
    Fields.signedDisplacement, Fields.signedDisplacement, BitVec.toInt_eq_toNat_cond,
    BitVec.toInt_eq_toNat_cond, UInt32.toNat_toBitVec, UInt32.toNat_toBitVec] at hmod'
  cases hcase : e.fields.addressSize with
  | bits16 =>
    rw [hcase] at hmod'
    simp only [AddressSize.bits, AddressSize.bytes] at hmod' ⊢
    split at hmod' <;> split at hmod' <;> omega
  | bits32 =>
    rw [hcase] at hmod'
    simp only [AddressSize.bits, AddressSize.bytes] at hmod' ⊢
    split at hmod' <;> split at hmod' <;> omega

lemma mod_eq_of_rm_text {o : Operand} (ho : o ∈ (e.instruction address).operands.toList)
    (hs : o.source = .rm)
    (htext : (e.instruction address).operandText o = (e'.instruction address).operandText o) :
    e.fields.displacement.toNat %
        256 ^ e.fields.modrm.displacementBytes e.fields.addressSize e.fields.sib =
      e'.fields.displacement.toNat %
        256 ^ e.fields.modrm.displacementBytes e.fields.addressSize e.fields.sib := by
  have hrm : .rm ∈ e.form.sources := hs ▸ List.mem_map_of_mem ho
  cases hmemory : e.fields.modrm.isRegister with
  | true =>
    have hzero := (ModRM.empty_of_isRegister hmemory e.fields.addressSize e.fields.sib).2.1
    rw [hzero, Nat.pow_zero, Nat.mod_one, Nat.mod_one]
  | false =>
    have ho' : o ∈ (e'.instruction address).operands.toList := by
      rw [h.instruction_eq]
      exact ho
    have hmemory' : e'.fields.modrm.isRegister = false := by
      rw [h.fields_eq]
      exact hmemory
    have hsegment : e'.fields.segment = e.fields.segment := by
      rw [h.fields_eq]
    rw [e.operandText_memory ho hs hmemory, e'.operandText_memory ho' hs hmemory', hsegment]
      at htext
    have hmod := h.mod_eq_of_expression_eq hrm hmemory (Text.memoryOperand_injective _ _ htext)
    exact LittleEndian.mod_eq_of_le hmod (ModRM.displacementBytes_le_bytes _ _ _)

lemma part_eq_of_operandText_eq {o : Operand} (ho : o ∈ (e.instruction address).operands.toList)
    (htext : (e.instruction address).operandText o = (e'.instruction address).operandText o)
    {part : Part} (hpart : part ∈ o.source.parts) :
    e.payload.part part = e'.payload.part part := by
  have hlength := e.length_part_of_mem ho hpart
  apply h.part_eq_of_mod_eq
  rw [hlength]
  have hnumbers := htext
  rw [h.instruction_eq address] at hnumbers
  cases hs : o.source with
  | immediate =>
    simp only [Instruction.operandText, hs] at hnumbers
    rw [hs] at hpart
    obtain rfl := List.mem_singleton.mp hpart
    have hmod := Text.mod_eq_of_hexConstant_eq hnumbers
    simp only [Operand.width, hs]
    exact hmod
  | immediate2 =>
    simp only [Instruction.operandText, hs] at hnumbers
    rw [hs] at hpart
    obtain rfl := List.mem_singleton.mp hpart
    have hmod := Text.mod_eq_of_hexConstant_eq hnumbers
    simp only [Operand.width, hs]
    exact hmod
  | relative =>
    simp only [Instruction.operandText, hs] at hnumbers
    rw [hs] at hpart
    obtain rfl := List.mem_singleton.mp hpart
    have hmod := Instruction.mod_eq_of_branchTarget_eq hnumbers
    simp only [Operand.width, hs]
    exact LittleEndian.mod_eq_of_le hmod (immediateBytes_le_branchTargetBytes ho hs)
  | absolute =>
    simp only [Instruction.operandText, hs] at hnumbers
    rw [hs] at hpart
    obtain rfl := List.mem_singleton.mp hpart
    have hmod := Text.mod_eq_of_hexConstant_eq (Text.memoryOperand_injective _ _ hnumbers)
    simp only [Operand.width, hs]
    exact hmod
  | farPointer =>
    simp only [Instruction.operandText, hs] at hnumbers
    obtain ⟨hselector, hoffset⟩ := Text.mod_eq_of_farPointer_eq hnumbers
    rw [hs] at hpart
    rcases List.mem_pair.mp hpart with rfl | rfl
    · simp only [Operand.width, hs]
      exact hoffset
    · simp only [Operand.width, hs]
      exact hselector
  | rm =>
    rw [hs] at hpart
    rcases List.mem_pair.mp hpart with rfl | rfl
    · have hsib : e'.fields.number .sib = e.fields.number .sib :=
        congrArg UInt8.toUInt32 h.sibByte.symm
      rw [hsib]
    · simp only [Operand.width, hs]
      exact h.mod_eq_of_rm_text address ho hs htext
  | _ =>
    rw [hs] at hpart
    cases hpart

/-- Twins that print alike have the same parts. -/
lemma part_eq_of_text_eq (htext : (e.instruction address).text = (e'.instruction address).text)
    (part : Part) : e.payload.part part = e'.payload.part part := by
  by_cases hpart : part ∈ e.form.parts
  · obtain ⟨o, ho, hpart⟩ := List.mem_flatMap.mp
      (e.form.flatMap_parts_operandsAt (mode.operandSizeAfter e.prefixes) ▸ hpart)
    have hprinted : o ∈ (e.instruction address).printedOperands :=
      Instruction.mem_printedOperands ho (List.ne_nil_of_mem hpart)
    have hoperand : (e.instruction address).operandText o =
        (e'.instruction address).operandText o := by
      have hprintable := e'.printable address
      rw [h.instruction_eq address] at htext hprintable ⊢
      exact Instruction.operandText_eq_of_text_eq (e.printable address) hprintable htext hprinted
    exact h.part_eq_of_operandText_eq address ho hoperand hpart
  · rw [e.part_eq_nil hpart, e'.part_eq_nil (h.form ▸ hpart)]

lemma eq_of_text_eq (htext : (e.instruction address).text = (e'.instruction address).text) :
    e.bytes = e'.bytes ∧ e.instruction address = e'.instruction address := by
  have hpayload : e.payload = e'.payload :=
    Payload.eq_of_part_eq (h.part_eq_of_text_eq address htext)
  have hbytes : e.bytes = e'.bytes := by
    rw [bytes, bytes, h.prefixes, h.opcode, h.modrm, hpayload]
  refine ⟨hbytes, ?_⟩
  simp only [instruction, body, fields, onStack, h.prefixes, h.form, h.modrmByte, hpayload, hbytes]
  rfl

end Twin

end Encoding

namespace Mode

/-- The opcode behind the prefixes. It has two bytes where the first leads to the second map. -/
def opcodeBytes (mode : Mode) (b : List UInt8) : List UInt8 :=
  match b.drop (mode.leadingPrefixes b).length with
  | [] => []
  | c :: rest =>
    match mode.processor.lead c with
    | .escape => c :: rest.take 1
    | _ => [c]

end Mode

namespace Encoding

variable {mode : Mode} (e : Encoding mode)

lemma opcodeBytes_bytes_append (rest : List UInt8) :
    mode.opcodeBytes (e.bytes ++ rest) = e.opcode := by
  have hleading : mode.leadingPrefixes (e.bytes ++ rest) = e.prefixes :=
    e.takeWhile_bytes_append rest
  have hdrop : (e.bytes ++ rest).drop e.prefixes.length =
      e.opcode ++ (e.modrm ++ e.payload.bytes ++ rest) := by
    simp [bytes]
  rw [Mode.opcodeBytes, hleading, hdrop]
  rcases Processor.lookup?_eq_some_iff.mp e.lookup?_opcode with
    ⟨c, hc, hlead⟩ | ⟨d, c, hc, hlead, -⟩
  · simp [hc, hlead]
  · simp [hc, hlead]

end Encoding

/-- Two byte lists that decode at the same address, agree on their prefixes, opcode, ModRM byte and
SIB byte, and print alike have the same bytes and the same instruction. -/
theorem take_eq_of_text_eq {mode : Mode} {b b' : List UInt8} {address : UInt32}
    {i i' : Instruction} (hi : decode mode b address = .ok i)
    (hi' : decode mode b' address = .ok i')
    (hprefixes : mode.leadingPrefixes b = mode.leadingPrefixes b')
    (hopcode : mode.opcodeBytes b = mode.opcodeBytes b')
    (hmodrm : i.fields.modrmByte = i'.fields.modrmByte)
    (hsib : i.fields.sibByte = i'.fields.sibByte) (htext : i.text = i'.text) :
    b.take i.length = b'.take i'.length ∧ i = i' := by
  obtain ⟨e, rest, rfl, rfl⟩ := exists_instruction_of_decode hi
  obtain ⟨e', rest', rfl, rfl⟩ := exists_instruction_of_decode hi'
  have htwin : e.Twin e' := by
    refine ⟨?_, ?_, hmodrm, hsib⟩
    · rw [← e.takeWhile_bytes_append rest, ← e'.takeWhile_bytes_append rest']
      exact hprefixes
    · rw [← e.opcodeBytes_bytes_append rest, ← e'.opcodeBytes_bytes_append rest', hopcode]
  obtain ⟨hbytes, heq⟩ := htwin.eq_of_text_eq address htext
  have htake : ∀ (x : Encoding mode) (l : List UInt8),
      (x.bytes ++ l).take (x.instruction address).length = x.bytes := fun x l => List.take_left
  exact ⟨by rw [htake, htake, hbytes], heq⟩

theorem take_eq_of_text_eq_add :
    ∃ i i', decode .flat [0x81, 0x43, 0xF0, 0x78, 0x56, 0x34, 0x12, 0x90] 0 = .ok i ∧
      decode .flat [0x81, 0x43, 0xF0, 0x78, 0x56, 0x34, 0x12, 0xF4] 0 = .ok i' ∧
      i.text.toList = "add dword ptr ds:[ebx - 10h], 12345678h".toList ∧ i.text = i'.text ∧
      ([0x81, 0x43, 0xF0, 0x78, 0x56, 0x34, 0x12, 0x90] : List UInt8).take i.length =
        [0x81, 0x43, 0xF0, 0x78, 0x56, 0x34, 0x12, 0xF4].take i'.length ∧ i = i' := by
  obtain ⟨i, hi⟩ : ∃ i, decode .flat [0x81, 0x43, 0xF0, 0x78, 0x56, 0x34, 0x12, 0x90] 0 = .ok i :=
    ⟨_, rfl⟩
  obtain ⟨i', hi'⟩ : ∃ i, decode .flat [0x81, 0x43, 0xF0, 0x78, 0x56, 0x34, 0x12, 0xF4] 0 = .ok i :=
    ⟨_, rfl⟩
  obtain ⟨hmodrm, hsib, htext, htext'⟩ : i.fields.modrmByte = i'.fields.modrmByte ∧
      i.fields.sibByte = i'.fields.sibByte ∧
      i.text.toList = "add dword ptr ds:[ebx - 10h], 12345678h".toList ∧
      i'.text.toList = "add dword ptr ds:[ebx - 10h], 12345678h".toList := by
    obtain rfl := Except.ok.inj hi
    obtain rfl := Except.ok.inj hi'
    decide +kernel
  have hsame : i.text = i'.text := String.toList_inj.mp (htext.trans htext'.symm)
  obtain ⟨htake, heq⟩ :=
    take_eq_of_text_eq hi hi' (by decide +kernel) (by decide +kernel) hmodrm hsib hsame
  exact ⟨i, i', hi, hi', htext, hsame, htake, heq⟩

end X86Disassembly
