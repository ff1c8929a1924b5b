import X86Disassembly.Proofs.NumberText
import X86Disassembly.Proofs.RoundTrip
import X86Disassembly.Text.Assembly

/-!
# Clean text

Which characters the text of an instruction is made of. The text has branches for what no
instruction has: registers without a name, segments that do not exist, rows of the maps that are
only markers. A decoded instruction comes to none of them, and its text is free of blanks at both
ends.
-/

namespace X86Disassembly

namespace Text

def isWordLetter (c : Char) : Bool :=
  c.isLower || c.isDigit

/-- A character of a mnemonic, which may be two words. -/
def isMnemonicLetter (c : Char) : Bool :=
  isWordLetter c || c == ' '

/-- A character of an operand that is not memory. -/
def isPlainLetter (c : Char) : Bool :=
  isWordLetter c || c == '(' || c == ')' || c == ':'

def isExpressionLetter (c : Char) : Bool :=
  isWordLetter c || c == ' ' || c == '+' || c == '-' || c == '*'

def isOperandLetter (c : Char) : Bool :=
  isPlainLetter c || isExpressionLetter c || c == '[' || c == ']'

def isTextLetter (c : Char) : Bool :=
  isOperandLetter c || c == ','

/-- A text of the given characters that is not empty and has no blank at either end. -/
structure Trimmed (letter : Char → Bool) (s : String) : Prop where
  all : s.toList.all letter = true
  ne_nil : s.toList ≠ []
  head : s.toList.head? ≠ some ' '
  last : s.toList.getLast? ≠ some ' '

instance (letter : Char → Bool) (s : String) : Decidable (Trimmed letter s) :=
  decidable_of_iff (s.toList.all letter = true ∧ s.toList ≠ [] ∧ s.toList.head? ≠ some ' ' ∧
      s.toList.getLast? ≠ some ' ')
    ⟨fun ⟨h₁, h₂, h₃, h₄⟩ => ⟨h₁, h₂, h₃, h₄⟩, fun h => ⟨h.all, h.ne_nil, h.head, h.last⟩⟩

lemma all_mono {letter more : Char → Bool} (hsub : ∀ c, letter c = true → more c = true)
    {l : List Char} (h : l.all letter = true) : l.all more = true := by
  rw [List.all_eq_true] at h ⊢
  exact fun c hc => hsub c (h c hc)

lemma not_mem_of_all {letter : Char → Bool} {c : Char} (hc : letter c = false) {l : List Char}
    (h : l.all letter = true) : c ∉ l := by
  intro hmem
  have hletter := List.all_eq_true.mp h c hmem
  rw [hc] at hletter
  cases hletter

lemma all_intercalate {letter : Char → Bool} {sep : String} (hsep : sep.toList.all letter = true)
    {l : List String} (h : ∀ s ∈ l, s.toList.all letter = true) :
    (sep.intercalate l).toList.all letter = true := by
  induction l with
  | nil => simp
  | cons s l ih =>
    obtain ⟨hs, hl⟩ := List.forall_mem_cons.mp h
    cases l with
    | nil => simpa using hs
    | cons t l =>
      rw [String.intercalate_cons_cons, String.toList_append, String.toList_append,
        List.all_append, List.all_append, hs, hsep, ih hl]
      rfl

lemma isMnemonicLetter_of_word (c : Char) (h : isWordLetter c = true) :
    isMnemonicLetter c = true := by
  simp [isMnemonicLetter, h]

lemma isPlainLetter_of_word (c : Char) (h : isWordLetter c = true) : isPlainLetter c = true := by
  simp [isPlainLetter, h]

lemma isExpressionLetter_of_word (c : Char) (h : isWordLetter c = true) :
    isExpressionLetter c = true := by
  simp [isExpressionLetter, h]

lemma isOperandLetter_of_plain (c : Char) (h : isPlainLetter c = true) :
    isOperandLetter c = true := by
  simp [isOperandLetter, h]

lemma isOperandLetter_of_expression (c : Char) (h : isExpressionLetter c = true) :
    isOperandLetter c = true := by
  simp [isOperandLetter, h]

lemma isOperandLetter_of_word (c : Char) (h : isWordLetter c = true) : isOperandLetter c = true :=
  isOperandLetter_of_plain c (isPlainLetter_of_word c h)

lemma isTextLetter_of_operand (c : Char) (h : isOperandLetter c = true) :
    isTextLetter c = true := by
  simp [isTextLetter, h]

lemma isTextLetter_of_mnemonic (c : Char) (h : isMnemonicLetter c = true) :
    isTextLetter c = true := by
  rw [isMnemonicLetter, Bool.or_eq_true, beq_iff_eq] at h
  rcases h with h | rfl
  · exact isTextLetter_of_operand c (isOperandLetter_of_word c h)
  · decide

namespace Trimmed

variable {letter more : Char → Bool} {s t : String}

lemma mono (h : Trimmed letter s) (hsub : ∀ c, letter c = true → more c = true) : Trimmed more s :=
  ⟨all_mono hsub h.all, h.ne_nil, h.head, h.last⟩

lemma getLast?_append (h : Trimmed letter t) :
    (s ++ t).toList.getLast? = t.toList.getLast? := by
  rw [String.toList_append, List.getLast?_append, List.getLast?_eq_some_getLast h.ne_nil]
  rfl

lemma head?_append (h : Trimmed letter s) : (s ++ t).toList.head? = s.toList.head? := by
  rw [String.toList_append, List.head?_append, List.head?_eq_some_head h.ne_nil]
  rfl

lemma of_word (hall : s.toList.all isWordLetter = true) (hne : s.toList ≠ []) :
    Trimmed isWordLetter s := by
  have hblank : ' ' ∉ s.toList := not_mem_of_all rfl hall
  refine ⟨hall, hne, ?_, ?_⟩
  · exact fun h => hblank (List.mem_of_mem_head? h)
  · exact fun h => hblank (List.mem_of_getLast? h)

lemma prepend (h : Trimmed letter t) (hall : s.toList.all letter = true)
    (hhead : s.toList.head? ≠ some ' ') : Trimmed letter (s ++ t) := by
  refine ⟨?_, ?_, ?_, ?_⟩
  · rw [String.toList_append, List.all_append, hall, h.all]
    rfl
  · rw [String.toList_append]
    exact List.append_ne_nil_of_right_ne_nil _ h.ne_nil
  · rw [String.toList_append, List.head?_append]
    cases hs : s.toList.head? with
    | none => exact h.head
    | some c => rwa [hs] at hhead
  · rw [h.getLast?_append]
    exact h.last

lemma append (h : Trimmed letter s) (hall : t.toList.all letter = true)
    (hlast : t.toList.getLast? ≠ some ' ') : Trimmed letter (s ++ t) := by
  refine ⟨?_, ?_, ?_, ?_⟩
  · rw [String.toList_append, List.all_append, h.all, hall]
    rfl
  · rw [String.toList_append]
    exact List.append_ne_nil_of_left_ne_nil h.ne_nil _
  · rw [h.head?_append]
    exact h.head
  · rw [String.toList_append, List.getLast?_append]
    cases ht : t.toList.getLast? with
    | none => exact h.last
    | some c => rwa [ht] at hlast

lemma join (hs : Trimmed letter s) {sep : String} (hsep : sep.toList.all letter = true)
    (ht : Trimmed letter t) : Trimmed letter (s ++ sep ++ t) := by
  rw [String.append_assoc]
  apply hs.append
  · rw [String.toList_append, List.all_append, hsep, ht.all]
    rfl
  · rw [ht.getLast?_append]
    exact ht.last

lemma intercalate {sep : String} (hsep : sep.toList.all letter = true) {l : List String}
    (hne : l ≠ []) (h : ∀ s ∈ l, Trimmed letter s) : Trimmed letter (sep.intercalate l) := by
  induction l with
  | nil => exact absurd rfl hne
  | cons s l ih =>
    obtain ⟨hs, hl⟩ := List.forall_mem_cons.mp h
    cases l with
    | nil =>
      rw [String.intercalate_singleton]
      exact hs
    | cons t l =>
      rw [String.intercalate_cons_cons]
      exact hs.join hsep (ih (List.cons_ne_nil t l) hl)

end Trimmed

lemma all_hexDigits (count n : Nat) : (hexDigits .lower count n).all isWordLetter = true := by
  rw [List.all_eq_true]
  intro c hc
  obtain ⟨d, hd, rfl⟩ := mem_hexDigits hc
  have hdigit : ∀ d < 16, isWordLetter (hexDigit .lower d) = true := by decide
  exact hdigit d hd

lemma trimmed_fixed {count : Nat} (hcount : count ≠ 0) (n : Nat) :
    Trimmed isWordLetter (fixed .lower count n) := by
  have hlist : (fixed .lower count n).toList = hexDigits .lower count n := String.toList_ofList
  apply Trimmed.of_word
  · rw [hlist]
    exact all_hexDigits _ _
  · rw [hlist, ← List.length_pos_iff, length_hexDigits]
    exact Nat.pos_of_ne_zero hcount

lemma trimmed_hexConstant (bytes : Nat) (value : UInt32) :
    Trimmed isWordLetter (hexConstant bytes value) := by
  have hlist : (hexConstant bytes value).toList =
      hexDigits .lower (2 * bytes) value.toNat ++ ['h'] := by
    rw [hexConstant, String.toList_append, fixed, String.toList_ofList]
    rfl
  apply Trimmed.of_word
  · rw [hlist, List.all_append, all_hexDigits]
    rfl
  · rw [hlist]
    simp

lemma trimmed_registerName (size : OperandSize) :
    ∀ id < 8, Trimmed isWordLetter (Register.name size id) := by
  cases size <;> decide +kernel

lemma trimmed_addressName (size : AddressSize) :
    ∀ id < 8, Trimmed isWordLetter (Register.addressName size id) := by
  cases size <;> decide +kernel

lemma trimmed_segmentName (s : Segment) : Trimmed isWordLetter s.name := by
  cases s <;> decide

lemma trimmed_decimal : ∀ n < 16, Trimmed isWordLetter (decimal n) := by
  decide +kernel

lemma trimmed_memoryOperand (size : OperandSize) (segment : Segment) {expression : String}
    (h : expression.toList.all isExpressionLetter = true) :
    Trimmed isOperandLetter (memoryOperand size segment expression) := by
  have hsize : Trimmed isOperandLetter size.pointerName := by
    cases size <;> decide
  have hsegment := (trimmed_segmentName segment).mono isOperandLetter_of_word
  have hplace : Trimmed isOperandLetter (size.pointerName ++ " ptr " ++ segment.name) :=
    hsize.join (by decide) hsegment
  have hopen := hplace.append (t := ":[") (by decide) (by decide)
  exact hopen.join (all_mono isOperandLetter_of_expression h) (by decide)

end Text

namespace MemoryExpression

open Text

lemma all_text {terms : List Term} (h : ∀ t ∈ terms, t.text.toList.all isExpressionLetter = true)
    (offset : Offset) : (text ⟨terms, offset⟩).toList.all isExpressionLetter = true := by
  have hterms : (" + ".intercalate (terms.map Term.text)).toList.all isExpressionLetter = true :=
    all_intercalate (by decide) (List.forall_mem_map.mpr h)
  have hoffset : offset.text.toList.all isExpressionLetter = true := by
    cases offset with
    | absolute size value =>
      exact all_mono isExpressionLetter_of_word (trimmed_hexConstant size.bytes value).all
    | distance value =>
      have hdigits : (shortest .lower value.natAbs).toList.all isExpressionLetter = true := by
        rw [shortest, fixed, String.toList_ofList]
        exact all_mono isExpressionLetter_of_word (all_hexDigits _ _)
      rw [Offset.text]
      split
      · simp
      · rw [String.toList_append, String.toList_append, List.all_append, List.all_append, hdigits]
        split <;> decide
  rw [text, String.toList_append, List.all_append, hterms, hoffset]
  rfl

@[simp]
lemma Term.text_unscaled (name : String) : Term.text ⟨name, 0⟩ = name := rfl

lemma all_registerTerm (size : AddressSize) (id : Fin 8) :
    (registerTerm size id).text.toList.all isExpressionLetter = true :=
  all_mono isExpressionLetter_of_word (trimmed_addressName size id id.isLt).all

lemma all_indexTerm (index : Fin 8) (scale : Fin 4) :
    (Term.text ⟨Register.addressName .bits32 index, scale⟩).toList.all isExpressionLetter =
      true := by
  have hname := all_mono isExpressionLetter_of_word
    (trimmed_addressName .bits32 index index.isLt).all
  have hlt : ∀ s : Fin 4, 1 <<< s.val < 16 := by decide
  have hfactor := all_mono isExpressionLetter_of_word (trimmed_decimal _ (hlt scale)).all
  unfold Term.text
  split
  · exact hname
  · rw [String.toList_append, String.toList_append, List.all_append, List.all_append, hname,
      hfactor]
    decide

lemma all_text_ofFields (f : Fields) (size : OperandSize) :
    (ofFields f size).text.toList.all isExpressionLetter = true := by
  unfold ofFields
  cases Addressing.ofModRM f.addressSize f.modrm with
  | register id =>
    apply all_text
    rw [List.forall_mem_singleton]
    exact all_mono isExpressionLetter_of_word (trimmed_registerName size id id.isLt).all
  | direct d => exact all_text (by simp) _
  | based b d =>
    apply all_text
    rw [List.forall_mem_singleton]
    exact all_registerTerm f.addressSize b
  | basedIndexed b i d =>
    apply all_text
    rw [List.forall_mem_cons, List.forall_mem_singleton]
    exact ⟨all_registerTerm f.addressSize b, all_registerTerm f.addressSize i⟩
  | scaled d =>
    apply all_text
    intro t ht
    rw [sibTerms, List.mem_append] at ht
    rcases ht with ht | ht
    · split at ht
      · obtain rfl := List.mem_singleton.mp ht
        exact all_registerTerm .bits32 f.sib.base
      · cases ht
    · split at ht
      · obtain rfl := List.mem_singleton.mp ht
        exact all_indexTerm f.sib.index f.sib.scale
      · cases ht

end MemoryExpression

namespace Source

/-- A register that the opcode fixes has a name. -/
def isNamed : Source → Bool
  | register id | stringPointer id | stack id => id.toNat < 8
  | _ => true

def isCondition : Source → Bool
  | condition _ => true
  | _ => false

/-- The operand is always printed as memory, or may be. -/
def isMemory : Source → Bool
  | stringPointer _ | absolute | rm => true
  | _ => false

/-- The characters that an operand may be printed with. -/
def letter (s : Source) : Char → Bool :=
  if s.isMemory then Text.isOperandLetter else Text.isPlainLetter

end Source

namespace Instruction

open Text

/-- What the text of an instruction relies on. -/
structure Printable (i : Instruction) : Prop where
  mnemonic : Trimmed isMnemonicLetter i.operation.mnemonic
  isNamed : ∀ o ∈ i.operands.toList, o.source.isNamed = true
  reg_lt : ∀ o ∈ i.operands.toList, o.source = .regSegment → i.fields.modrm.reg.val < 6
  /-- A condition is read off the first operand only. -/
  isCondition : ∀ o ∈ i.operands.toList.tail, o.source.isCondition = false

lemma trimmed_operandText {i : Instruction} {o : Operand} (hused : o.isUsed = true)
    (hcondition : o.source.isCondition = false) (hnamed : o.source.isNamed = true)
    (hreg : o.source = .regSegment → i.fields.modrm.reg.val < 6) :
    Trimmed o.source.letter (i.operandText o) := by
  have hword := isPlainLetter_of_word
  have hinner := isExpressionLetter_of_word
  unfold operandText
  cases hs : o.source with
  | unused => simp [Operand.isUsed, hs] at hused
  | condition c => simp [Source.isCondition, hs] at hcondition
  | constant value => exact (trimmed_hexConstant _ _).mono hword
  | immediate => exact (trimmed_hexConstant _ _).mono hword
  | immediate2 => exact (trimmed_hexConstant _ _).mono hword
  | relative => exact (trimmed_hexConstant _ _).mono hword
  | register id =>
    have hid : id.toNat < 8 := by simpa [Source.isNamed, hs] using hnamed
    exact (trimmed_registerName _ _ hid).mono hword
  | segment s => exact (trimmed_segmentName s).mono hword
  | stringPointer id =>
    have hid : id.toNat < 8 := by simpa [Source.isNamed, hs] using hnamed
    exact trimmed_memoryOperand _ _ (all_mono hinner (trimmed_addressName _ _ hid).all)
  | absolute => exact trimmed_memoryOperand _ _ (all_mono hinner (trimmed_hexConstant _ _).all)
  | farPointer =>
    exact ((trimmed_fixed (by decide) _).mono hword).join (by decide)
      ((trimmed_hexConstant _ _).mono hword)
  | reg => exact (trimmed_registerName _ _ i.fields.modrm.reg.isLt).mono hword
  | rmRegister => exact (trimmed_registerName _ _ i.fields.modrm.rm.isLt).mono hword
  | rm =>
    dsimp only
    split
    · exact (trimmed_registerName _ _ i.fields.modrm.rm.isLt).mono isOperandLetter_of_word
    · exact trimmed_memoryOperand _ _ (MemoryExpression.all_text_ofFields _ _)
  | regSegment =>
    have hnames : ∀ r < 6,
        Trimmed isPlainLetter (((Segment.ofIndex? r).map Segment.name).getD "<invalid>") := by
      decide +kernel
    exact hnames _ (hreg hs)
  | regControl =>
    exact ((trimmed_decimal _ (by omega)).mono hword).prepend (by decide) (by decide)
  | regDebug =>
    exact ((trimmed_decimal _ (by omega)).mono hword).prepend (by decide) (by decide)
  | regTest =>
    exact ((trimmed_decimal _ (by omega)).mono hword).prepend (by decide) (by decide)
  | stack index =>
    have hindex : index.toNat < 8 := by simpa [Source.isNamed, hs] using hnamed
    have hname := ((trimmed_decimal index.toNat (by omega)).mono hword).prepend (s := "st(")
      (by decide) (by decide)
    exact hname.append (t := ")") (by decide) (by decide)

lemma operandsText_of_ne_nil {i : Instruction} (h : i.printedOperands ≠ []) :
    i.operandsText = " " ++ ", ".intercalate (i.printedOperands.map i.operandText) := by
  unfold operandsText
  split
  · rename_i hnil
    exact absurd hnil h
  · rfl

lemma printedOperands_sublist (i : Instruction) :
    i.printedOperands.Sublist i.operands.toList := by
  refine List.filter_sublist.trans ?_
  split
  · exact List.tail_sublist _
  · exact List.Sublist.refl _

lemma isCondition_of_mem_printedOperands {i : Instruction} (h : i.Printable) {o : Operand}
    (ho : o ∈ i.printedOperands) :
    o ∈ i.operands.toList ∧ o.isUsed = true ∧ o.source.isCondition = false := by
  obtain ⟨hmem, hused⟩ := List.mem_filter.mp ho
  cases hfolded : i.foldedOperand with
  | some s =>
    rw [hfolded] at hmem
    exact ⟨List.mem_of_mem_tail hmem, hused, h.isCondition o hmem⟩
  | none =>
    rw [hfolded] at hmem
    refine ⟨hmem, hused, ?_⟩
    rcases List.mem_cons.mp hmem with rfl | htail
    · -- A condition in the first slot would complete the mnemonic.
      cases hs : i.operands.first.source with
      | condition c => simp [foldedOperand, hs] at hfolded
      | _ => rfl
    · exact h.isCondition o htail

namespace Printable

variable {i : Instruction} (h : i.Printable)
include h

lemma trimmed_of_mem_printedOperands {o : Operand} (ho : o ∈ i.printedOperands) :
    Trimmed o.source.letter (i.operandText o) := by
  obtain ⟨hmem, hused, hcondition⟩ := isCondition_of_mem_printedOperands h ho
  exact trimmed_operandText hused hcondition (h.isNamed o hmem) (h.reg_lt o hmem)

lemma trimmed_mnemonicText : Trimmed isMnemonicLetter i.mnemonicText := by
  have hsuffix : ∀ s : String, s.toList.all isWordLetter = true →
      s.toList.all isMnemonicLetter = true ∧ s.toList.getLast? ≠ some ' ' := by
    intro s hs
    refine ⟨all_mono isMnemonicLetter_of_word hs, ?_⟩
    intro hlast
    exact not_mem_of_all rfl hs (List.mem_of_getLast? hlast)
  have helement : (if i.operation.isString then i.elementSize.stringSuffix else "").toList.all
      isWordLetter = true := by
    split
    · cases i.elementSize <;> decide
    · simp
  have hfolded : (i.foldedOperand.getD "").toList.all isWordLetter = true := by
    unfold foldedOperand
    cases i.operands.first.source with
    | condition c =>
      dsimp only
      split
      · decide
      · cases c <;> decide
    | segment s =>
      dsimp only
      split
      · exact (trimmed_segmentName s).all
      · simp
    | _ => simp
  obtain ⟨helement, helement'⟩ := hsuffix _ helement
  obtain ⟨hfolded, hfolded'⟩ := hsuffix _ hfolded
  exact (h.mnemonic.append helement helement').append hfolded hfolded'

omit h in
lemma isTextLetter_of_letter (s : Source) (c : Char) (hc : s.letter c = true) :
    isTextLetter c = true := by
  unfold Source.letter at hc
  split at hc
  · exact isTextLetter_of_operand c hc
  · exact isTextLetter_of_operand c (isOperandLetter_of_plain c hc)

omit h in
lemma all_prefixText (i : Instruction) :
    i.prefixText.toList.all isMnemonicLetter = true ∧ i.prefixText.toList.head? ≠ some ' ' := by
  unfold prefixText
  generalize i.fields.lock = lock
  generalize i.fields.repetition = repetition
  generalize i.operation.isStringCompare = compares
  cases lock <;> cases compares <;> rcases repetition with _ | _ | _ <;> decide

/-- The text of an instruction is not empty, has no blank at either end, and is made of letters,
digits and the signs of expressions. -/
theorem trimmed_text : Trimmed isTextLetter i.text := by
  obtain ⟨hwords, hhead⟩ := all_prefixText i
  have hstart : Trimmed isTextLetter (i.prefixText ++ i.mnemonicText) :=
    (h.trimmed_mnemonicText.mono isTextLetter_of_mnemonic).prepend
      (all_mono isTextLetter_of_mnemonic hwords) hhead
  rw [text]
  by_cases hnil : i.printedOperands = []
  · have hempty : i.operandsText = "" := by rw [operandsText, hnil]
    rw [hempty, String.append_empty]
    exact hstart
  · rw [operandsText_of_ne_nil hnil, ← String.append_assoc]
    apply hstart.join (by decide)
    apply Trimmed.intercalate (by decide)
    · simpa using hnil
    · rw [List.forall_mem_map]
      intro o ho
      exact (h.trimmed_of_mem_printedOperands ho).mono (isTextLetter_of_letter o.source)

end Printable

end Instruction

/-! ## Decoded instructions -/

lemma Text.isWordLetter_bounds {c : Char} (h : Text.isWordLetter c = true) :
    97 ≤ c.toNat ∧ c.toNat ≤ 122 ∨ 48 ≤ c.toNat ∧ c.toNat ≤ 57 := by
  have hlower : c.isLower = (decide ('a'.val ≤ c.val) && decide (c.val ≤ 'z'.val)) := rfl
  simp only [isWordLetter, hlower, Char.isDigit, Bool.or_eq_true, Bool.and_eq_true,
    decide_eq_true_eq, UInt32.le_iff_toNat_le, ge_iff_le] at h
  exact h

lemma Text.isTextLetter_bounds {c : Char} (h : Text.isTextLetter c = true) :
    32 ≤ c.toNat ∧ c.toNat ≤ 126 ∧ c.toNat ≠ 63 ∧ c.toNat ≠ 60 := by
  simp only [isTextLetter, isOperandLetter, isPlainLetter, isExpressionLetter, Bool.or_eq_true,
    beq_iff_eq, or_assoc] at h
  rcases h with h | rfl | rfl | rfl | h | rfl | rfl | rfl | rfl | rfl | rfl | rfl
  · have hword := isWordLetter_bounds h
    omega
  · decide
  · decide
  · decide
  · have hword := isWordLetter_bounds h
    omega
  all_goals decide

lemma Operation.trimmed_mnemonic {o : Operation} (h : o.isMarker = false) :
    Text.Trimmed Text.isMnemonicLetter o.mnemonic := by
  cases o with
  | undefined | escape | groupExtension | coprocessorExtension | segmentPrefix | repPrefix
  | repNePrefix | lockPrefix | operandSizePrefix | addressSizePrefix => cases h
  | _ => decide +kernel

/-- The forms of the maps are instructions, their operands are in the first slots and have names,
and a condition is in the first slot only. -/
lemma clean_of_mem_listedForms : ∀ f ∈ listedForms,
    f.operation.isMarker = false ∧
      (f.operands.first.source = .unused → f.operands.second.source = .unused) ∧
      (f.operands.second.source = .unused → f.operands.third.source = .unused) ∧
      (∀ s ∈ f.sources.tail, s.isCondition = false) ∧ ∀ s ∈ f.sources, s.isNamed = true := by
  decide +kernel

lemma Encoding.printable {mode : Mode} (e : Encoding mode) (address : UInt32) :
    (e.instruction address).Printable := by
  obtain ⟨hmarker, -, -, hcondition, hnamed⟩ :=
    clean_of_mem_listedForms e.form e.form_mem_listedForms
  have hsource : ∀ o ∈ (e.instruction address).operands.toList, o.source ∈ e.form.sources :=
    fun o ho => List.mem_map_of_mem ho
  refine ⟨Operation.trimmed_mnemonic hmarker, ?_, ?_, ?_⟩
  · exact fun o ho => hnamed o.source (hsource o ho)
  · intro o ho hs
    have hlt := e.reg_lt (hs ▸ hsource o ho)
    have hle : mode.processor.segmentRegisters ≤ 6 := by
      cases mode.processor <;> decide
    exact Nat.lt_of_lt_of_le hlt hle
  · intro o ho
    exact hcondition o.source (List.mem_map_of_mem ho)

/-- A decoded instruction prints cleanly. Its operation is not a marker, its operands fill the first
slots, and a condition is in the first slot only. Its text is not empty, has no blank at either end,
and consists of printable characters without the signs of a missing name. -/
theorem text_clean_of_decode {mode : Mode} {b : List UInt8} {address : UInt32} {i : Instruction}
    (h : decode mode b address = .ok i) :
    i.operation.isMarker = false ∧
    (i.operands.second.isUsed → i.operands.first.isUsed) ∧
    (i.operands.third.isUsed → i.operands.second.isUsed) ∧
    (∀ c, i.operands.second.source ≠ .condition c ∧ i.operands.third.source ≠ .condition c) ∧
    i.text ≠ "" ∧
    (∀ c, i.text.toList.head? = some c → c.isWhitespace = false) ∧
    (∀ c, i.text.toList.getLast? = some c → c.isWhitespace = false) ∧
    ∀ c ∈ i.text.toList, 32 ≤ c.toNat ∧ c.toNat ≤ 126 ∧ c ≠ '?' ∧ c ≠ '<' := by
  obtain ⟨e, rest, -, rfl⟩ := exists_instruction_of_decode h
  obtain ⟨hmarker, hsecond, hthird, -⟩ :=
    clean_of_mem_listedForms e.form e.form_mem_listedForms
  have hused : ∀ o : Operand, o.isUsed = true ↔ o.source ≠ .unused := by
    intro o
    simp [Operand.isUsed]
  have htext := (e.printable address).trimmed_text
  have hletters := List.all_eq_true.mp htext.all
  have hblank : ∀ c ∈ (e.instruction address).text.toList, c ≠ ' ' → c.isWhitespace = false := by
    intro c hc hne
    have hbounds := Text.isTextLetter_bounds (hletters c hc)
    simp only [Char.isWhitespace, Bool.or_eq_false_iff, decide_eq_false_iff_not]
    refine ⟨⟨⟨hne, ?_⟩, ?_⟩, ?_⟩
    · rintro rfl
      exact absurd hbounds.1 (by decide)
    · rintro rfl
      exact absurd hbounds.1 (by decide)
    · rintro rfl
      exact absurd hbounds.1 (by decide)
  refine ⟨hmarker, ?_, ?_, ?_, ?_, ?_, ?_, ?_⟩
  · rw [hused, hused]
    exact fun hne hnil => hne (hsecond hnil)
  · rw [hused, hused]
    exact fun hne hnil => hne (hthird hnil)
  · intro c
    have hno : ∀ o ∈ (e.instruction address).operands.toList.tail, o.source ≠ .condition c := by
      intro o ho hs
      have hfalse := (e.printable address).isCondition o ho
      rw [hs] at hfalse
      cases hfalse
    exact ⟨hno _ (by simp [Slots.toList]), hno _ (by simp [Slots.toList])⟩
  · intro hempty
    apply htext.ne_nil
    rw [hempty]
    rfl
  · intro c hc
    refine hblank c (List.mem_of_mem_head? hc) ?_
    rintro rfl
    exact htext.head hc
  · intro c hc
    refine hblank c (List.mem_of_getLast? hc) ?_
    rintro rfl
    exact htext.last hc
  · intro c hc
    obtain ⟨hlow, hhigh, hquestion, hless⟩ := Text.isTextLetter_bounds (hletters c hc)
    refine ⟨hlow, hhigh, ?_, ?_⟩
    · rintro rfl
      exact hquestion rfl
    · rintro rfl
      exact hless rfl

theorem text_clean_of_decode_jump :
    ∃ i, decode .flat [0xE3, 0xFE] 0x1000 = .ok i ∧ i.text.toList = "jecxz 00001000h".toList ∧
      i.operation.isMarker = false ∧ ∀ c ∈ i.text.toList, c ≠ '?' ∧ c ≠ '<' := by
  obtain ⟨i, hi⟩ : ∃ i, decode .flat [0xE3, 0xFE] 0x1000 = .ok i := ⟨_, rfl⟩
  have htext : i.text.toList = "jecxz 00001000h".toList := by
    obtain rfl := Except.ok.inj hi
    decide +kernel
  obtain ⟨hmarker, -, -, -, -, -, -, hletters⟩ := text_clean_of_decode hi
  exact ⟨i, hi, htext, hmarker, fun c hc => (hletters c hc).2.2⟩

end X86Disassembly
