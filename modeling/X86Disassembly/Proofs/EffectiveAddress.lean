import X86Disassembly.Proofs.ExpressionReading

/-!
# Effective addresses

The expression in the brackets of a memory operand is the address that the processor computes. The
address is computed from the bits of the ModRM and SIB bytes and the bytes of the displacement; what
is printed is read as the same address, whatever the registers hold.
-/

namespace X86Disassembly

/-- The number whose bytes are given, low byte first, in two's complement. -/
def LittleEndian.signedValue (bytes : List UInt8) : Int :=
  if 2 * value bytes < 256 ^ bytes.length then value bytes
  else (value bytes : Int) - 256 ^ bytes.length

/-- Bytes of displacement under a mode that selects memory. -/
def displacementWidth (size : AddressSize) (mode base : Nat) : Nat :=
  match size, mode with
  | .bits16, 0 => if base = 6 then 2 else 0
  | .bits32, 0 => if base = 5 then 4 else 0
  | _, 1 => 1
  | .bits16, _ => 2
  | .bits32, _ => 4

namespace RegisterFile

variable (r : RegisterFile)

/-- The registers of a 16-bit form. -/
def sum16 (mode rm : Nat) : Nat :=
  let bx := r.ebx.toNat % 2 ^ 16
  let bp := r.ebp.toNat % 2 ^ 16
  let si := r.esi.toNat % 2 ^ 16
  let di := r.edi.toNat % 2 ^ 16
  match rm with
  | 0 => bx + si
  | 1 => bx + di
  | 2 => bp + si
  | 3 => bp + di
  | 4 => si
  | 5 => di
  | 6 => if mode = 0 then 0 else bp
  | _ => bx

/-- A 16-bit address from the fields of a ModRM byte and the bytes behind it. -/
def address16 (mode rm : Nat) (following : List UInt8) : Int :=
  let displacement := following.take (displacementWidth .bits16 mode rm)
  (r.sum16 mode rm + LittleEndian.signedValue displacement) % 2 ^ 16

/-- The base register of a 32-bit form. Under mode 0 there is a displacement instead of register
5. -/
def base32 (mode base : Nat) : Nat :=
  if mode = 0 ∧ base = 5 then 0 else r.get base

def basedAddress32 (mode base scaledIndex : Nat) (following : List UInt8) : Int :=
  let displacement := following.take (displacementWidth .bits32 mode base)
  (r.base32 mode base + scaledIndex + LittleEndian.signedValue displacement) % 2 ^ 32

/-- A 32-bit address from the fields of a ModRM byte and the bytes behind it. Number 4 stands for a
SIB byte, and in the SIB byte for no index. -/
def address32 (mode rm : Nat) (following : List UInt8) : Int :=
  if rm = 4 then
    let sib := (following.headD 0).toNat
    let index := sib / 8 % 8
    let scaledIndex := if index = 4 then 0 else r.get index * 2 ^ (sib / 64)
    r.basedAddress32 mode (sib % 8) scaledIndex following.tail
  else r.basedAddress32 mode rm 0 following

/-- The address that a ModRM byte selects with the bytes behind it. -/
def effectiveAddress (size : AddressSize) (modrm : UInt8) (following : List UInt8) : Int :=
  let mode := modrm.toNat / 64
  let rm := modrm.toNat % 8
  match size with
  | .bits16 => r.address16 mode rm following
  | .bits32 => r.address32 mode rm following

end RegisterFile

lemma LittleEndian.toInt_signExtended {l : List UInt8} (h : l.length ≤ 4) :
    (signExtended l).toBitVec.toInt = signedValue l := by
  have hlt := value_lt l
  have hle := pow_le_two_pow h
  have hsize : UInt32.size = 2 ^ 32 := by decide
  rw [BitVec.toInt_eq_toNat_cond, UInt32.toNat_toBitVec, signExtended, one_shiftLeft_mul, hsize,
    UInt32.toNat_ofNat', signedValue]
  have hcast : ((256 ^ l.length : Nat) : Int) = 256 ^ l.length := by simp
  split <;> rename_i hpos
  · rw [Nat.mod_eq_of_lt (by omega)]
    omega
  · rw [Nat.mod_eq_of_lt (by omega)]
    omega

namespace Fields

/-- The registers that a memory operand adds up. -/
def addends (f : Fields) : List (Fin 8 × Fin 4) :=
  match Addressing.ofModRM f.addressSize f.modrm with
  | .register _ | .direct _ => []
  | .based b _ => [(b, 0)]
  | .basedIndexed b i _ => [(b, 0), (i, 0)]
  | .scaled _ =>
    (if f.hasSibBase then [(f.sib.base, 0)] else []) ++
      (if f.hasSibIndex then [(f.sib.index, f.sib.scale)] else [])

end Fields

lemma ModRM.mode_of_memory {m : ModRM} (hmemory : m.isRegister = false) :
    m.mode = 0 ∨ m.mode = 1 ∨ m.mode = 2 := by
  have htable : ∀ mode : Fin 4, mode ≠ 3 → mode = 0 ∨ mode = 1 ∨ mode = 2 := by decide
  exact htable m.mode (by simpa [isRegister] using hmemory)

lemma ModRM.val_mode_ofByte (b : UInt8) : (ModRM.ofByte b).mode.val = b.toNat / 64 := by
  have hlt := b.toNat_lt
  exact Nat.mod_eq_of_lt (by omega)

lemma Sib.val_scale_ofByte (b : UInt8) : (Sib.ofByte b).scale.val = b.toNat / 64 := by
  have hlt := b.toNat_lt
  exact Nat.mod_eq_of_lt (by omega)

lemma ModRM.displacementBytes_eq (m : ModRM) (size : AddressSize) (sib : Sib)
    (hmemory : m.isRegister = false) : m.displacementBytes size sib =
      displacementWidth size m.mode (if m.hasSib size then sib.base.val else m.rm.val) := by
  have htable : ∀ (mode : Fin 4) (rm base : Fin 8), mode ≠ 3 →
      ModRM.displacementBytes ⟨mode, 0, rm⟩ size ⟨0, 0, base⟩ = displacementWidth size mode
        (if ModRM.hasSib ⟨mode, 0, rm⟩ size then base.val else rm.val) := by
    cases size <;> decide +kernel
  exact htable m.mode m.rm sib.base (by simpa [ModRM.isRegister] using hmemory)

namespace RegisterFile

variable (r : RegisterFile) {f : Fields}

def sum (f : Fields) : Nat :=
  (f.addends.map (MemoryExpression.addendValue r f.addressSize)).sum

lemma sum_bits16 (hsize : f.addressSize = .bits16) (hmemory : f.modrm.isRegister = false) :
    r.sum f = r.sum16 f.modrm.mode f.modrm.rm := by
  have hvalue : ∀ id, MemoryExpression.addendValue r .bits16 (id, 0) = r.read .bits16 id := by
    simp [MemoryExpression.addendValue]
  have hmode := ModRM.mode_of_memory hmemory
  unfold sum Fields.addends
  rw [hsize]
  generalize f.modrm = m at hmode ⊢
  obtain ⟨mode, reg, rm⟩ := m
  rcases hmode with rfl | rfl | rfl <;> fin_cases rm <;>
    simp [Addressing.ofModRM, Addressing.of16, hvalue] <;> rfl

lemma sum_bits32 (hsize : f.addressSize = .bits32) (hmemory : f.modrm.isRegister = false)
    (hrm : f.modrm.rm ≠ 4) : r.sum f = r.base32 f.modrm.mode f.modrm.rm := by
  have hvalue : ∀ id, MemoryExpression.addendValue r .bits32 (id, 0) = r.get id := by
    simp [MemoryExpression.addendValue, read_bits32]
  have hmode := ModRM.mode_of_memory hmemory
  unfold sum Fields.addends
  rw [hsize]
  generalize f.modrm = m at hmode hrm ⊢
  obtain ⟨mode, reg, rm⟩ := m
  rcases hmode with rfl | rfl | rfl <;> fin_cases rm <;>
    simp [Addressing.ofModRM, Addressing.of32, hvalue] at hrm ⊢ <;> rfl

lemma sum_scaled (hsize : f.addressSize = .bits32) (hmemory : f.modrm.isRegister = false)
    (hrm : f.modrm.rm = 4) : r.sum f = r.base32 f.modrm.mode f.sib.base +
      (if f.sib.index.val = 4 then 0 else r.get f.sib.index * 2 ^ f.sib.scale.val : Nat) := by
  have hform : ∃ d, Addressing.ofModRM .bits32 f.modrm = .scaled d := by
    have hmode := ModRM.mode_of_memory hmemory
    generalize f.modrm = m at hmode hrm ⊢
    obtain ⟨mode, reg, rm⟩ := m
    subst hrm
    rcases hmode with rfl | rfl | rfl
    · exact ⟨_, rfl⟩
    · exact ⟨_, rfl⟩
    · exact ⟨_, rfl⟩
  obtain ⟨d, hform⟩ := hform
  have hbase : f.hasSibBase = true ↔ ¬(f.modrm.mode.val = 0 ∧ f.sib.base.val = 5) := by
    rw [Fields.hasSibBase, Sib.hasBase, Bool.or_eq_true, bne_iff_ne, bne_iff_ne, Ne, Ne,
      Fin.ext_iff, Fin.ext_iff, or_comm, ← not_and_or]
    rfl
  have hindex : f.hasSibIndex = true ↔ ¬f.sib.index.val = 4 := by
    rw [Fields.hasSibIndex, Sib.hasIndex, bne_iff_ne, Ne, Fin.ext_iff]
    rfl
  unfold sum Fields.addends base32
  rw [hsize, hform]
  simp only [hbase, hindex]
  split <;> split <;> simp_all [MemoryExpression.addendValue, read_bits32]

end RegisterFile

namespace Encoding

open LittleEndian

variable {mode : Mode} (e : Encoding mode)

lemma natAbs_signedValue_lt {l : List UInt8} (h : l.length ≤ 4) :
    (signedValue l).natAbs < UInt32.size := by
  have hlt := value_lt l
  have hle := pow_le_two_pow h
  have hsize : UInt32.size = 2 ^ 32 := by decide
  have hcast : ((256 ^ l.length : Nat) : Int) = 256 ^ l.length := by simp
  unfold signedValue
  split <;> omega

lemma signedDisplacement_of_isSigned (h : e.form.sources.any (·.isSigned) = true) :
    e.fields.signedDisplacement = signedValue e.payload.displacement := by
  have hfield : e.fields.displacement = signExtended e.payload.displacement := by
    simp [fields, h]
  rw [Fields.signedDisplacement, hfield]
  exact toInt_signExtended (e.length_part_le .displacement)

section Memory

variable (hrm : .rm ∈ e.form.sources) (hmemory : e.fields.modrm.isRegister = false)
include hrm

lemma signedDisplacement_fields :
    e.fields.signedDisplacement = signedValue e.payload.displacement :=
  e.signedDisplacement_of_isSigned (List.any_eq_true.mpr ⟨.rm, hrm, rfl⟩)

lemma length_displacement : e.payload.displacement.length =
    e.fields.modrm.displacementBytes e.fields.addressSize e.fields.sib := by
  rw [← e.form.map_source_operandsAt (mode.operandSizeAfter e.prefixes)] at hrm
  obtain ⟨o, ho, hs⟩ := List.mem_map.mp hrm
  have hpart : Part.displacement ∈ o.source.parts := by
    rw [hs]
    decide
  have hlength := e.length_part_of_mem ho hpart
  simp only [Payload.part, Operand.width, hs] at hlength
  exact hlength

lemma baseOffset_fields {d : Displacement}
    (hd : d.bytes = e.fields.modrm.displacementBytes e.fields.addressSize e.fields.sib) :
    MemoryExpression.baseOffset e.fields d = .distance (signedValue e.payload.displacement) := by
  unfold MemoryExpression.baseOffset
  split
  · rename_i hnone
    have hnil : e.payload.displacement = [] := by
      apply List.eq_nil_of_length_eq_zero
      rw [e.length_displacement hrm, ← hd, hnone]
      rfl
    rw [hnil]
    rfl
  · rw [e.signedDisplacement_fields hrm]

include hmemory

lemma ofFields_fields (size : OperandSize) :
    MemoryExpression.ofFields e.fields size =
      if e.fields.addends = [] then ⟨[], .absolute e.fields.addressSize e.fields.displacement⟩
      else ⟨e.fields.addends.map (MemoryExpression.addend e.fields.addressSize),
        .distance (signedValue e.payload.displacement)⟩ := by
  have hdescribes := Addressing.describes_ofModRM e.fields.addressSize e.fields.modrm e.fields.sib
  unfold MemoryExpression.ofFields Fields.addends
  cases haddressing : Addressing.ofModRM e.fields.addressSize e.fields.modrm with
  | register id =>
    simp only [haddressing, Addressing.describes, Bool.and_eq_true] at hdescribes
    exact absurd hdescribes.1.1.1 (ne_true_of_eq_false hmemory)
  | direct d => simp
  | based b d =>
    simp only [haddressing, Addressing.describes, Bool.and_eq_true, beq_iff_eq] at hdescribes
    dsimp only
    rw [if_neg (List.cons_ne_nil _ _), e.baseOffset_fields hrm (d := d) hdescribes.1.2]
    rfl
  | basedIndexed b i d =>
    simp only [haddressing, Addressing.describes, Bool.and_eq_true, beq_iff_eq] at hdescribes
    dsimp only
    rw [if_neg (List.cons_ne_nil _ _), e.baseOffset_fields hrm (d := d) hdescribes.1.2]
    rfl
  | scaled d =>
    simp only [haddressing, Addressing.describes, ModRM.hasSib, Bool.and_eq_true,
      beq_iff_eq] at hdescribes
    have hsize : e.fields.addressSize = .bits32 := hdescribes.1.1.1.1.1
    dsimp only
    rw [hsize, e.signedDisplacement_fields hrm, MemoryExpression.sibTerms]
    cases e.fields.hasSibBase <;> cases e.fields.hasSibIndex <;> rfl

/-- The text of a memory operand is read as the sum of its registers and its displacement. -/
lemma exists_evaluate?_ofFields (r : RegisterFile) (size : OperandSize) :
    ∃ n, r.evaluate? (MemoryExpression.ofFields e.fields size).text = some n ∧
      n % 2 ^ e.fields.addressSize.bits =
        (r.sum e.fields + signedValue e.payload.displacement) % 2 ^ e.fields.addressSize.bits := by
  rw [e.ofFields_fields hrm hmemory]
  by_cases hempty : e.fields.addends = []
  · have hsum : r.sum e.fields = 0 := by rw [RegisterFile.sum, hempty, List.map_nil, List.sum_nil]
    have hsigned := e.signedDisplacement_fields hrm
    rw [Fields.signedDisplacement, BitVec.toInt_eq_toNat_cond, UInt32.toNat_toBitVec] at hsigned
    rw [if_pos hempty, hsum, ← hsigned]
    refine ⟨_, MemoryExpression.evaluate?_absolute r _ _, ?_⟩
    cases e.fields.addressSize <;> simp only [AddressSize.bits] <;> split <;> omega
  · rw [if_neg hempty]
    have hlength := natAbs_signedValue_lt (e.length_part_le .displacement)
    exact ⟨_, MemoryExpression.evaluate?_sum r _ hempty hlength, rfl⟩

lemma take_displacement : (e.payload.bytes.drop e.payload.sib.length).take
      (displacementWidth e.fields.addressSize e.fields.modrm.mode
        (if e.fields.modrm.hasSib e.fields.addressSize then e.fields.sib.base.val
          else e.fields.modrm.rm.val)) = e.payload.displacement := by
  have hlength := e.length_displacement hrm
  rw [ModRM.displacementBytes_eq _ _ _ hmemory] at hlength
  have hdrop : e.payload.bytes.drop e.payload.sib.length =
      e.payload.displacement ++ (e.payload.immediate ++ e.payload.immediate2) := by
    simp [Payload.bytes]
  rw [hdrop]
  exact List.take_left' hlength

lemma effectiveAddress_bytes (r : RegisterFile) :
    r.effectiveAddress e.fields.addressSize e.modrmByte e.payload.bytes =
      (r.sum e.fields + signedValue e.payload.displacement) % 2 ^ e.fields.addressSize.bits := by
  have hmode : e.modrmByte.toNat / 64 = e.fields.modrm.mode :=
    (ModRM.val_mode_ofByte e.modrmByte).symm
  have hmode3 : e.fields.modrm.mode ≠ 3 := by simpa [ModRM.isRegister] using hmemory
  have hsib : e.payload.sib =
      if e.fields.modrm.hasSib e.fields.addressSize then [e.payload.sibByte] else [] := by
    rw [e.sib_eq]
    simp only [hrm, true_and]
    rfl
  have htake := e.take_displacement hrm hmemory
  cases hhas : e.fields.modrm.hasSib e.fields.addressSize with
  | false =>
    rw [hhas, if_neg Bool.false_ne_true] at hsib htake
    rw [hsib, List.length_nil, List.drop_zero] at htake
    cases hsize : e.fields.addressSize with
    | bits16 =>
      rw [hsize] at htake
      rw [RegisterFile.effectiveAddress, hmode, r.sum_bits16 hsize hmemory, ← htake]
      rfl
    | bits32 =>
      have hrm4 : e.fields.modrm.rm ≠ 4 := by
        simpa [ModRM.hasSib, hsize, hmode3] using hhas
      have hne : ¬e.modrmByte.toNat % 8 = 4 := fun heq => hrm4 (Fin.ext heq)
      rw [hsize] at htake
      rw [RegisterFile.effectiveAddress, hmode, r.sum_bits32 hsize hmemory hrm4, ← htake]
      rw [RegisterFile.address32, if_neg hne, RegisterFile.basedAddress32, Int.natCast_zero,
        Int.add_zero]
      rfl
  | true =>
    rw [hhas, if_pos rfl] at hsib htake
    simp only [ModRM.hasSib, Bool.and_eq_true, beq_iff_eq] at hhas
    obtain ⟨⟨hsize, -⟩, hrm4⟩ := hhas
    have heq : e.modrmByte.toNat % 8 = 4 := congrArg Fin.val hrm4
    have hbytes : e.payload.bytes = e.payload.sibByte :: e.payload.bytes.tail := by
      rw [Payload.bytes, hsib]
      rfl
    rw [hsize, hsib, List.length_singleton, List.drop_one] at htake
    rw [hsize, RegisterFile.effectiveAddress, hmode, r.sum_scaled hsize hmemory hrm4, ← htake,
      RegisterFile.address32, if_pos heq, RegisterFile.basedAddress32, hbytes, List.headD_cons,
      List.tail_cons, ← Sib.val_scale_ofByte]
    rfl

end Memory

end Encoding

namespace Text

def isOutside (c : Char) : Bool :=
  c != '[' && c != ']'

lemma all_isOutside {letter : Char → Bool} (hopen : letter '[' = false)
    (hclose : letter ']' = false) {l : List Char} (h : l.all letter = true) :
    l.all isOutside = true := by
  apply all_mono _ h
  intro c hc
  rw [isOutside, Bool.and_eq_true, bne_iff_ne, bne_iff_ne]
  constructor
  · rintro rfl
    rw [hopen] at hc
    cases hc
  · rintro rfl
    rw [hclose] at hc
    cases hc

lemma exists_memoryOperand_eq (size : OperandSize) (segment : Segment) (expression : String) :
    ∃ place, memoryOperand size segment expression = place ++ "[" ++ expression ++ "]" ∧
      place.toList.all isOutside = true := by
  have hopen : ":[" = ":" ++ "[" := rfl
  refine ⟨size.pointerName ++ " ptr " ++ segment.name ++ ":", ?_, ?_⟩
  · rw [memoryOperand, hopen]
    simp only [String.append_assoc]
  · cases size <;> cases segment <;> decide

lemma exists_intercalate_eq {letter : Char → Bool} (sep : String)
    (hsep : sep.toList.all letter = true) {l m : List String}
    (hl : ∀ s ∈ l, s.toList.all letter = true) (hm : ∀ s ∈ m, s.toList.all letter = true)
    (x : String) : ∃ before after, sep.intercalate (l ++ x :: m) = before ++ x ++ after ∧
      before.toList.all letter = true ∧ after.toList.all letter = true := by
  have hafter : ∃ after, sep.intercalate (x :: m) = x ++ after ∧
      after.toList.all letter = true := by
    cases m with
    | nil => exact ⟨"", by simp, by simp⟩
    | cons y m =>
      refine ⟨sep ++ sep.intercalate (y :: m), ?_, ?_⟩
      · rw [String.intercalate_cons_cons, String.append_assoc]
      · rw [String.toList_append, List.all_append, hsep, all_intercalate hsep hm]
        rfl
  obtain ⟨after, hx, hafter⟩ := hafter
  cases l with
  | nil => exact ⟨"", after, by simpa using hx, by simp, hafter⟩
  | cons y l =>
    refine ⟨sep.intercalate (y :: l) ++ sep, after, ?_, ?_, hafter⟩
    · rw [String.intercalate_append_of_ne_nil (List.cons_ne_nil y l) (List.cons_ne_nil x m), hx,
        String.append_assoc, String.append_assoc, String.append_assoc]
    · rw [String.toList_append, List.all_append, hsep, all_intercalate hsep hl]
      rfl

end Text

namespace Instruction

open Text

lemma Printable.exists_text_eq {i : Instruction} (h : i.Printable) {o : Operand}
    (ho : i.printedOperands.filter (·.source.isMemory) = [o]) :
    ∃ before after, i.text = before ++ i.operandText o ++ after ∧
      before.toList.all isOutside = true ∧ after.toList.all isOutside = true := by
  obtain ⟨l, m, hsplit, hl, -, hm⟩ := List.filter_eq_cons_iff.mp ho
  rw [List.filter_eq_nil_iff] at hm
  have hother : ∀ o ∈ i.printedOperands, ¬o.source.isMemory = true →
      (i.operandText o).toList.all isOutside = true := by
    intro o ho hs
    have hall := (h.trimmed_of_mem_printedOperands ho).all
    rw [Source.letter, if_neg hs] at hall
    exact all_isOutside rfl rfl hall
  have hbefore : ∀ s ∈ l.map i.operandText, s.toList.all isOutside = true :=
    List.forall_mem_map.mpr fun o ho => hother o (by simp [hsplit, ho]) (hl o ho)
  have hafter : ∀ s ∈ m.map i.operandText, s.toList.all isOutside = true :=
    List.forall_mem_map.mpr fun o ho => hother o (by simp [hsplit, ho]) (hm o ho)
  obtain ⟨before, after, htext, hbefore, hafter⟩ :=
    exists_intercalate_eq ", " (by decide) hbefore hafter (i.operandText o)
  refine ⟨i.prefixText ++ i.mnemonicText ++ " " ++ before, after, ?_, ?_, hafter⟩
  · have hne : i.printedOperands ≠ [] := by simp [hsplit]
    have hoperands : i.operandsText = " " ++ (before ++ i.operandText o ++ after) := by
      rw [operandsText_of_ne_nil hne, hsplit, List.map_append, List.map_cons, htext]
    rw [text, hoperands]
    simp only [String.append_assoc]
  · have hwords := all_isOutside rfl rfl (Printable.all_prefixText i).1
    have hmnemonic := all_isOutside rfl rfl h.trimmed_mnemonicText.all
    simp only [String.toList_append, List.all_append, hwords, hmnemonic, hbefore]
    rfl

/-- Only a condition or a segment completes the mnemonic; what is read from the code is printed. -/
lemma mem_printedOperands {i : Instruction} {o : Operand} (ho : o ∈ i.operands.toList)
    (hparts : o.source.parts ≠ []) : o ∈ i.printedOperands := by
  have hused : o.isUsed = true := by
    rw [Operand.isUsed, bne_iff_ne]
    intro hs
    exact hparts (by rw [hs]; rfl)
  refine List.mem_filter.mpr ⟨?_, hused⟩
  split
  · rename_i hfolded
    rcases List.mem_cons.mp ho with rfl | htail
    · unfold foldedOperand at hfolded
      cases hs : i.operands.first.source <;> simp_all [Source.parts]
    · exact htail
  · exact ho

end Instruction

lemma rm_of_mem_listedForms : ∀ f ∈ listedForms, .rm ∈ f.sources →
    f.sources.filter (·.isMemory) = [.rm] ∧ .rmRegister ∉ f.sources := by
  decide +kernel

namespace Encoding

variable {mode : Mode} (e : Encoding mode) {address : UInt32} {o : Operand}

lemma filter_printedOperands_eq {p : Source → Bool} (hsources : e.form.sources.filter p = [o.source])
    (ho : o ∈ (e.instruction address).operands.toList) (hparts : o.source.parts ≠ []) :
    (e.instruction address).printedOperands.filter (p ·.source) = [o] := by
  have hkind : p o.source = true :=
    List.of_mem_filter (hsources ▸ List.mem_singleton_self o.source)
  have hform : e.form.sources = (e.instruction address).operands.toList.map (·.source) := rfl
  have hall : (e.instruction address).operands.toList.filter (p ·.source) = [o] := by
    have hmap : ((e.instruction address).operands.toList.filter (p ·.source)).map
        (·.source) = [o.source] := by
      rw [← hsources, hform, List.filter_map]
      rfl
    obtain ⟨a, ha, -⟩ := List.map_eq_singleton_iff.mp hmap
    have hmem : o ∈ (e.instruction address).operands.toList.filter (p ·.source) :=
      List.mem_filter.mpr ⟨ho, hkind⟩
    rw [ha, List.mem_singleton] at hmem
    rw [ha, hmem]
  have hsub := (e.instruction address).printedOperands_sublist.filter (p ·.source)
  rw [hall] at hsub
  have hmem : o ∈ (e.instruction address).printedOperands :=
    Instruction.mem_printedOperands ho hparts
  rcases List.sublist_singleton.mp hsub with hnil | hone
  · exact absurd (List.mem_filter.mpr ⟨hmem, hkind⟩) (by rw [hnil]; exact List.not_mem_nil)
  · exact hone

lemma filter_printedOperands (ho : o ∈ (e.instruction address).operands.toList)
    (hs : o.source = .rm) :
    (e.instruction address).printedOperands.filter (·.source.isMemory) = [o] := by
  have hrm : .rm ∈ e.form.sources := hs ▸ List.mem_map_of_mem ho
  have hsources := (rm_of_mem_listedForms _ e.form_mem_listedForms hrm).1
  apply e.filter_printedOperands_eq _ ho
  · rw [hs]
    decide
  · rw [hs, hsources]

lemma operandText_memory (ho : o ∈ (e.instruction address).operands.toList) (hs : o.source = .rm)
    (hmemory : e.fields.modrm.isRegister = false) :
    (e.instruction address).operandText o =
      Text.memoryOperand o.size e.fields.segment
        (MemoryExpression.ofFields e.fields o.size).text := by
  have hrm : .rm ∈ e.form.sources := hs ▸ List.mem_map_of_mem ho
  have hnot := (rm_of_mem_listedForms _ e.form_mem_listedForms hrm).2
  have hregister : (e.instruction address).fields.rmIsRegister = false := by
    change (e.form.sources.contains .rmRegister || e.form.sources.contains .rm &&
      e.fields.modrm.isRegister) = false
    simp [hnot, hmemory]
  simp only [Instruction.operandText, hs, hregister]
  rfl

lemma modrm_eq_singleton (hrm : .rm ∈ e.form.sources) : e.modrm = [e.modrmByte] := by
  have hhas : e.entry.hasModRM = true := by
    have hform := e.form?_entry
    cases hentry : e.entry with
    | undefined =>
      rw [hentry] at hform
      cases hform
    | form f =>
      rw [hentry] at hform
      obtain rfl := Option.some.inj hform
      obtain ⟨template, htemplate, hs⟩ := List.mem_map.mp hrm
      exact List.any_eq_true.mpr ⟨template, htemplate, by rw [hs]; rfl⟩
    | group rows => rfl
    | coprocessor rows => rfl
  rw [e.modrm_eq, if_pos hhas]

end Encoding

/-- The text between the brackets of a memory operand means the address that the processor computes.
The operand has the only brackets of the text, and the expression between them, evaluated with any
values in the registers and on the ring of addresses of the given size, is the effective address of
the ModRM byte and the bytes that the instruction takes behind it. -/
theorem evaluate?_text_of_decode {mode : Mode} {b : List UInt8} {address : UInt32}
    {i : Instruction} (h : decode mode b address = .ok i) {o : Operand}
    (ho : o ∈ i.operands.toList) (hs : o.source = .rm) (hmode : i.fields.modrmByte.toNat / 64 ≠ 3) :
    ∃ (e : Encoding mode) (before expression after : String),
      i = e.instruction address ∧
      b.take i.length = e.prefixes ++ e.opcode ++ i.fields.modrmByte :: e.payload.bytes ∧
      i.operandText o = Text.memoryOperand o.size i.fields.segment expression ∧
      i.text = before ++ "[" ++ expression ++ "]" ++ after ∧
      (∀ c ∈ before.toList ++ expression.toList ++ after.toList, c ≠ '[' ∧ c ≠ ']') ∧
      ∀ r : RegisterFile,
        (r.evaluate? expression).map (· % 2 ^ (mode.addressSizeAfter e.prefixes).bits) =
          some (r.effectiveAddress (mode.addressSizeAfter e.prefixes) i.fields.modrmByte
            e.payload.bytes) := by
  obtain ⟨e, rest, rfl, rfl⟩ := exists_instruction_of_decode h
  have hrm : .rm ∈ e.form.sources := hs ▸ List.mem_map_of_mem ho
  have hmemory : e.fields.modrm.isRegister = false := by
    rw [ModRM.isRegister, beq_eq_false_iff_ne]
    intro hthree
    apply hmode
    rw [← ModRM.val_mode_ofByte]
    exact congrArg Fin.val hthree
  obtain ⟨before, after, htext, hbefore, hafter⟩ :=
    (e.printable address).exists_text_eq (e.filter_printedOperands ho hs)
  have hoperand := e.operandText_memory ho hs hmemory
  obtain ⟨place, hbrackets, hplace⟩ := Text.exists_memoryOperand_eq o.size e.fields.segment
    (MemoryExpression.ofFields e.fields o.size).text
  have hexpression := Text.all_isOutside rfl rfl
    (MemoryExpression.all_text_ofFields e.fields o.size)
  refine ⟨e, before ++ place, _, after, rfl, ?_, hoperand, ?_, ?_, ?_⟩
  · have hlength : (e.instruction address).length = e.bytes.length := rfl
    rw [hlength, List.take_left, Encoding.bytes, e.modrm_eq_singleton hrm]
    simp only [List.append_assoc, List.singleton_append]
    rfl
  · rw [htext, hoperand, hbrackets]
    simp only [String.append_assoc]
  · intro c hc
    have hall : ((before ++ place).toList ++ (MemoryExpression.ofFields e.fields o.size).text.toList
        ++ after.toList).all Text.isOutside = true := by
      simp only [String.toList_append, List.all_append, hbefore, hplace, hexpression, hafter]
      rfl
    simpa [Text.isOutside] using List.all_eq_true.mp hall c hc
  · intro r
    obtain ⟨n, hn, hmod⟩ := e.exists_evaluate?_ofFields hrm hmemory r o.size
    have haddress := e.effectiveAddress_bytes hrm hmemory r
    rw [hn, Option.map_some]
    exact congrArg some (hmod.trans haddress.symm)

theorem evaluate?_text_of_decode_scaled :
    ∃ (i : Instruction) (o : Operand) (e : Encoding .flat) (before expression after : String),
      decode .flat [0x8B, 0x44, 0x8B, 0xF0, 0x90] 0x1000 = .ok i ∧ o ∈ i.operands.toList ∧
      o.source = .rm ∧ i.fields.modrmByte.toNat / 64 ≠ 3 ∧
      i.text.toList = "mov eax, dword ptr ds:[ebx + ecx * 4 - 10h]".toList ∧
      i.text = before ++ "[" ++ expression ++ "]" ++ after ∧
      [0x8B, 0x44, 0x8B, 0xF0] = e.prefixes ++ e.opcode ++ 0x44 :: e.payload.bytes ∧
      ∀ r : RegisterFile, (r.evaluate? expression).map (· % 2 ^ 32) =
        some (r.effectiveAddress .bits32 0x44 e.payload.bytes) := by
  obtain ⟨i, hi⟩ : ∃ i, decode .flat [0x8B, 0x44, 0x8B, 0xF0, 0x90] 0x1000 = .ok i := ⟨_, rfl⟩
  obtain ⟨hlength, hbyte, hsize, hsource, htext⟩ :
      i.length = 4 ∧ i.fields.modrmByte = 0x44 ∧ i.fields.addressSize = .bits32 ∧
        i.operands.second.source = .rm ∧
        i.text.toList = "mov eax, dword ptr ds:[ebx + ecx * 4 - 10h]".toList := by
    obtain rfl := Except.ok.inj hi
    decide +kernel
  have hmem : i.operands.second ∈ i.operands.toList := by simp [Slots.toList]
  have hmode : i.fields.modrmByte.toNat / 64 ≠ 3 := by
    rw [hbyte]
    decide
  obtain ⟨e, before, expression, after, he, hbytes, -, hsplit, -, hevaluate⟩ :=
    evaluate?_text_of_decode hi hmem hsource hmode
  have haddress : Mode.flat.addressSizeAfter e.prefixes = .bits32 := by
    rw [he] at hsize
    exact hsize
  rw [hlength, hbyte] at hbytes
  rw [haddress, hbyte] at hevaluate
  exact ⟨i, i.operands.second, e, before, expression, after, hi, hmem, hsource, hmode, htext,
    hsplit, hbytes, hevaluate⟩

end X86Disassembly
