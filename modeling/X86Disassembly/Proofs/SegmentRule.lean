import X86Disassembly.Proofs.EffectiveAddress
import X86Disassembly.Proofs.PrefixSummary

/-!
# The segment of memory operands

A segment prefix names the segment of all memory but the destination of string instructions, which
is in `es` whatever the prefixes are. Without one, memory under `bp` or `ebp` is on the stack and
all other memory in the data segment. The text of an instruction shows this segment before each
bracket, and can be read for it.
-/

namespace X86Disassembly

/-- The register that the address of a memory operand starts from. There is none for a displacement
alone, nor for a SIB byte that leaves the base out. -/
def ModRM.base? (m : ModRM) (size : AddressSize) (sib : Sib) : Option String :=
  if m.mode = 3 then none
  else
    match size with
    | .bits16 =>
      if m.mode = 0 ∧ m.rm = 6 then none
      else ["bx", "bx", "bp", "bp", "si", "di", "bp", "bx"][m.rm]?
    | .bits32 =>
      let id := if m.rm = 4 then sib.base else m.rm
      if m.mode = 0 ∧ id = 5 then none
      else ["eax", "ecx", "edx", "ebx", "esp", "ebp", "esi", "edi"][id]?

lemma ModRM.basedOnFrame_eq_true_iff (m : ModRM) (size : AddressSize) (sib : Sib) :
    m.basedOnFrame size sib = true ↔
      m.base? size sib = some "bp" ∨ m.base? size sib = some "ebp" := by
  have htable : ∀ (mode : Fin 4) (rm base : Fin 8),
      (⟨mode, 0, rm⟩ : ModRM).basedOnFrame size ⟨0, 0, base⟩ = true ↔
        (⟨mode, 0, rm⟩ : ModRM).base? size ⟨0, 0, base⟩ = some "bp" ∨
          (⟨mode, 0, rm⟩ : ModRM).base? size ⟨0, 0, base⟩ = some "ebp" := by
    cases size <;> decide +kernel
  exact htable m.mode m.rm sib.base

namespace Text

/-- For each opening bracket the three characters before it and what stands up to the next closing
one. The characters before the text are given, the last one first. -/
def memoryTextsFrom : List Char → List Char → List (String × String)
  | _, [] => []
  | seen, c :: rest =>
    if c = '[' then
      (String.ofList (seen.take 3).reverse, String.ofList (rest.takeWhile (· ≠ ']'))) ::
        memoryTextsFrom (c :: seen) rest
    else memoryTextsFrom (c :: seen) rest

/-- The memory operands of a text, each as its segment with a colon and the expression between the
brackets. -/
def memoryTexts (text : String) : List (String × String) :=
  memoryTextsFrom [] text.toList

lemma memoryTextsFrom_append {l : List Char} (h : l.all isOutside = true) (seen r : List Char) :
    memoryTextsFrom seen (l ++ r) = memoryTextsFrom (l.reverse ++ seen) r := by
  induction l generalizing seen with
  | nil => rfl
  | cons c l ih =>
    rw [List.all_cons, Bool.and_eq_true] at h
    have hc : c ≠ '[' := by
      rintro rfl
      exact absurd h.1 (by decide)
    rw [List.cons_append, memoryTextsFrom, if_neg hc, ih h.2, List.reverse_cons, List.append_assoc]
    rfl

lemma takeWhile_ne_bracket {l : List Char} (h : l.all isOutside = true) (r : List Char) :
    (l ++ ']' :: r).takeWhile (· ≠ ']') = l := by
  have hl : ∀ c ∈ l, decide (c ≠ ']') = true := by
    intro c hc
    have houtside := List.all_eq_true.mp h c hc
    rw [isOutside, Bool.and_eq_true, bne_iff_ne, bne_iff_ne] at houtside
    exact decide_eq_true houtside.2
  rw [List.takeWhile_append_of_pos hl]
  simp

lemma exists_memoryTextsFrom_memoryOperand (size : OperandSize) (segment : Segment)
    {expression : String} (h : expression.toList.all isOutside = true) (seen r : List Char) :
    ∃ seen', memoryTextsFrom seen ((memoryOperand size segment expression).toList ++ r) =
      (segment.name ++ ":", expression) :: memoryTextsFrom seen' r := by
  let place := size.pointerName ++ " ptr " ++ segment.name ++ ":"
  have hplace : place.toList.all isOutside = true ∧ 3 ≤ place.toList.length ∧
      (place.toList.reverse.take 3).reverse = (segment.name ++ ":").toList := by
    cases size <;> cases segment <;> decide
  obtain ⟨hall, hlength, hlast⟩ := hplace
  have htext : (memoryOperand size segment expression).toList ++ r =
      place.toList ++ '[' :: (expression.toList ++ ']' :: r) := by
    have hopen : ":[".toList = ":".toList ++ ['['] := rfl
    have hclose : "]".toList = [']'] := rfl
    simp only [memoryOperand, place, String.toList_append, hopen, hclose, List.append_assoc,
      List.cons_append, List.nil_append]
  refine ⟨']' :: (expression.toList.reverse ++ '[' :: (place.toList.reverse ++ seen)), ?_⟩
  rw [htext, memoryTextsFrom_append hall, memoryTextsFrom, if_pos rfl, takeWhile_ne_bracket h,
    memoryTextsFrom_append h, memoryTextsFrom, if_neg (by decide),
    List.take_append_of_le_length (by simpa using hlength), hlast, String.ofList_toList,
    String.ofList_toList]

end Text

namespace Instruction

/-- The segment and the expression of an operand, if it is memory. -/
def memory? (i : Instruction) (o : Operand) : Option (Segment × String) :=
  let f := i.fields
  match o.source with
  | .rm =>
    if f.modrm.mode = 3 then none
    else some (f.segment, (MemoryExpression.ofFields f o.size).text)
  | .absolute => some (f.segment, Text.hexConstant f.addressSize.bytes f.displacement)
  | .stringPointer id =>
    if id = 6 then some (f.segment, if f.addressSize = .bits16 then "si" else "esi")
    else if id = 7 then some (.es, if f.addressSize = .bits16 then "di" else "edi")
    else none
  | _ => none

/-- An operand is printed as the memory that it is, or without brackets. -/
def PrintsMemory (i : Instruction) (o : Operand) : Prop :=
  match i.memory? o with
  | some (segment, expression) =>
    i.operandText o = Text.memoryOperand o.size segment expression ∧
      expression.toList.all Text.isOutside = true
  | none => (i.operandText o).toList.all Text.isOutside = true

lemma PrintsMemory.of_some {i : Instruction} {o : Operand} {segment : Segment} {expression : String}
    (h : i.memory? o = some (segment, expression))
    (htext : i.operandText o = Text.memoryOperand o.size segment expression)
    (hall : expression.toList.all Text.isOutside = true) : i.PrintsMemory o := by
  rw [PrintsMemory, h]
  exact ⟨htext, hall⟩

lemma PrintsMemory.of_none {i : Instruction} {o : Operand} (h : i.memory? o = none)
    (hall : (i.operandText o).toList.all Text.isOutside = true) : i.PrintsMemory o := by
  rw [PrintsMemory, h]
  exact hall

lemma PrintsMemory.exists_memoryTextsFrom {i : Instruction} {o : Operand} (h : i.PrintsMemory o)
    (seen r : List Char) :
    ∃ seen', Text.memoryTextsFrom seen ((i.operandText o).toList ++ r) =
      (i.memory? o).toList.map (fun m => (m.1.name ++ ":", m.2)) ++
        Text.memoryTextsFrom seen' r := by
  unfold PrintsMemory at h
  cases hmemory : i.memory? o with
  | none =>
    rw [hmemory] at h
    exact ⟨_, Text.memoryTextsFrom_append h seen r⟩
  | some m =>
    rw [hmemory] at h
    obtain ⟨htext, hall⟩ := h
    rw [htext]
    exact Text.exists_memoryTextsFrom_memoryOperand o.size m.1 hall seen r

/-- The operands of a text are read one after another. -/
lemma memoryTextsFrom_intercalate {i : Instruction} {ops : List Operand}
    (h : ∀ o ∈ ops, i.PrintsMemory o) (seen : List Char) :
    Text.memoryTextsFrom seen (", ".intercalate (ops.map i.operandText)).toList =
      (ops.filterMap i.memory?).map fun m => (m.1.name ++ ":", m.2) := by
  induction ops generalizing seen with
  | nil => rfl
  | cons o ops ih =>
    obtain ⟨hfirst, hrest⟩ := List.forall_mem_cons.mp h
    have hcons : (o :: ops).filterMap i.memory? =
        (i.memory? o).toList ++ ops.filterMap i.memory? := by
      rw [List.filterMap_cons]
      cases i.memory? o <;> rfl
    rw [hcons, List.map_append]
    cases ops with
    | nil =>
      obtain ⟨seen', hread⟩ := hfirst.exists_memoryTextsFrom seen []
      rw [List.append_nil] at hread
      rw [List.map_singleton, String.intercalate_singleton, hread]
      rfl
    | cons next ops =>
      have hcomma : ", ".toList.all Text.isOutside = true := by decide
      obtain ⟨seen', hread⟩ := hfirst.exists_memoryTextsFrom seen
        (", ".toList ++ (", ".intercalate ((next :: ops).map i.operandText)).toList)
      rw [List.map_cons, List.map_cons, String.intercalate_cons_cons, String.toList_append,
        String.toList_append, List.append_assoc, ← List.map_cons, hread,
        Text.memoryTextsFrom_append hcomma, ih hrest]

lemma filterMap_memory?_printedOperands (i : Instruction) :
    i.printedOperands.filterMap i.memory? = i.operands.toList.filterMap i.memory? := by
  have hused : ∀ l : List Operand, (l.filter (·.isUsed)).filterMap i.memory? =
      l.filterMap i.memory? := by
    intro l
    rw [List.filterMap_filter]
    apply List.filterMap_congr
    intro o _
    by_cases hsource : o.source = .unused
    · simp [Operand.isUsed, memory?, hsource]
    · simp [Operand.isUsed, hsource]
  rw [printedOperands, hused]
  split
  · rename_i hfolded
    have hfirst : i.memory? i.operands.first = none := by
      unfold foldedOperand at hfolded
      unfold memory?
      cases hs : i.operands.first.source <;> simp_all
    rw [Slots.toList, List.tail_cons, List.filterMap_cons_none hfirst]
  · rfl

lemma Printable.memoryTexts_text {i : Instruction} (h : i.Printable)
    (hprints : ∀ o ∈ i.printedOperands, i.PrintsMemory o) :
    Text.memoryTexts i.text =
      (i.operands.toList.filterMap i.memory?).map fun m => (m.1.name ++ ":", m.2) := by
  have hwords : (i.prefixText ++ i.mnemonicText).toList.all Text.isOutside = true := by
    have hprefix := Text.all_isOutside rfl rfl (Printable.all_prefixText i).1
    have hmnemonic := Text.all_isOutside rfl rfl h.trimmed_mnemonicText.all
    rw [String.toList_append, List.all_append, hprefix, hmnemonic]
    rfl
  rw [← i.filterMap_memory?_printedOperands, Text.memoryTexts, text, String.toList_append,
    Text.memoryTextsFrom_append hwords]
  by_cases hnil : i.printedOperands = []
  · rw [operandsText, hnil]
    rfl
  · have hblank : " ".toList.all Text.isOutside = true := by decide
    have hoperands : i.operandsText.toList =
        " ".toList ++ (", ".intercalate (i.printedOperands.map i.operandText)).toList := by
      rw [operandsText_of_ne_nil hnil, String.toList_append]
    rw [hoperands, Text.memoryTextsFrom_append hblank]
    exact memoryTextsFrom_intercalate hprints _

end Instruction

/-- A string instruction reads under `si` and writes under `di`. -/
def Source.isStringRegister : Source → Bool
  | .stringPointer id => id == 6 || id == 7
  | _ => true

lemma isStringRegister_of_mem_listedForms :
    ∀ f ∈ listedForms, ∀ s ∈ f.sources, s.isStringRegister = true := by
  decide +kernel

namespace Encoding

variable {mode : Mode} (e : Encoding mode) {address : UInt32} {o : Operand}

lemma printsMemory_rm (ho : o ∈ (e.instruction address).operands.toList) (hs : o.source = .rm) :
    (e.instruction address).PrintsMemory o := by
  have hfields : (e.instruction address).fields = e.fields := rfl
  by_cases hmode : e.fields.modrm.mode = 3
  · have hregister : e.fields.rmIsRegister = true := by
      have hrm : .rm ∈ e.form.sources := hs ▸ List.mem_map_of_mem ho
      have hisRegister : e.fields.modrm.isRegister = true := beq_iff_eq.mpr hmode
      change (_ || e.form.sources.contains .rm && e.fields.modrm.isRegister) = true
      simp [hrm, hisRegister]
    have htext : (e.instruction address).operandText o =
        Register.name o.size e.fields.modrm.rm := by
      simp only [Instruction.operandText, hs, hfields, hregister, if_true]
    apply Instruction.PrintsMemory.of_none
    · simp only [Instruction.memory?, hs, hfields, hmode, if_true]
    · rw [htext]
      exact Text.all_isOutside rfl rfl
        (Text.trimmed_registerName o.size _ e.fields.modrm.rm.isLt).all
  · have hmemory : (e.instruction address).memory? o =
        some (e.fields.segment, (MemoryExpression.ofFields e.fields o.size).text) := by
      simp only [Instruction.memory?, hs, hfields, hmode, if_false]
    apply Instruction.PrintsMemory.of_some hmemory
    · exact e.operandText_memory ho hs (beq_eq_false_iff_ne.mpr hmode)
    · exact Text.all_isOutside rfl rfl (MemoryExpression.all_text_ofFields e.fields o.size)

lemma printsMemory_stringPointer (ho : o ∈ (e.instruction address).operands.toList) {id : UInt8}
    (hs : o.source = .stringPointer id) : (e.instruction address).PrintsMemory o := by
  have hsource : .stringPointer id ∈ e.form.sources := hs ▸ List.mem_map_of_mem ho
  have hid := isStringRegister_of_mem_listedForms _ e.form_mem_listedForms _ hsource
  have hnames : ∀ size : AddressSize,
      Register.addressName size 6 = (if size = .bits16 then "si" else "esi") ∧
        Register.addressName size 7 = if size = .bits16 then "di" else "edi" := by
    intro size
    cases size <;> exact ⟨rfl, rfl⟩
  obtain ⟨hsi, hdi⟩ := hnames (e.instruction address).fields.addressSize
  simp only [Source.isStringRegister, Bool.or_eq_true, beq_iff_eq] at hid
  rcases hid with rfl | rfl
  · apply Instruction.PrintsMemory.of_some
    · simp only [Instruction.memory?, hs, if_true]
      rfl
    · simp only [Instruction.operandText, hs, ← hsi]
      rfl
    · split <;> decide
  · apply Instruction.PrintsMemory.of_some
    · simp only [Instruction.memory?, hs]
      rfl
    · simp only [Instruction.operandText, hs, ← hdi]
      rfl
    · split <;> decide

lemma printsMemory (ho : o ∈ (e.instruction address).printedOperands) :
    (e.instruction address).PrintsMemory o := by
  have htrimmed := (e.printable address).trimmed_of_mem_printedOperands ho
  have hmem := (Instruction.isCondition_of_mem_printedOperands (e.printable address) ho).1
  cases hs : o.source with
  | rm => exact e.printsMemory_rm hmem hs
  | stringPointer id => exact e.printsMemory_stringPointer hmem hs
  | absolute =>
    apply Instruction.PrintsMemory.of_some
    · rw [Instruction.memory?, hs]
    · rw [Instruction.operandText, hs]
    · exact Text.all_isOutside rfl rfl (Text.trimmed_hexConstant _ _).all
  | _ =>
    rw [hs] at htrimmed
    apply Instruction.PrintsMemory.of_none
    · simp only [Instruction.memory?, hs]
    · exact Text.all_isOutside rfl rfl htrimmed.all

end Encoding

/-- The effective segment. The last segment prefix decides; without one it is the stack segment
exactly where the base register of a register-or-memory operand is `bp` or `ebp`, and the data
segment otherwise. The memory operands that the text shows are those of the instruction, in order:
each has the effective segment before its bracket, but for memory under `di` or `edi`, which has
`es`. -/
theorem segment_of_decode {mode : Mode} {b : List UInt8} {address : UInt32} {i : Instruction}
    (h : decode mode b address = .ok i) :
    let override := ((mode.leadingPrefixes b).filterMap mode.processor.segment?).getLast?
    let base? := i.fields.modrm.base? i.fields.addressSize i.fields.sib
    i.fields.segmentOverride = override ∧
    (∀ s, override = some s → i.fields.segment = s) ∧
    (override = none →
      (i.fields.segment = .ss ↔
        (∃ o ∈ i.operands.toList, o.source = .rm) ∧ (base? = some "bp" ∨ base? = some "ebp")) ∧
      (i.fields.segment = .ss ∨ i.fields.segment = .ds)) ∧
    Text.memoryTexts i.text =
      (i.operands.toList.filterMap i.memory?).map fun m => (m.1.name ++ ":", m.2) := by
  obtain ⟨e, rest, rfl, rfl⟩ := exists_instruction_of_decode h
  intro override base?
  have hoverride : (mode.summary e.prefixes).segment = override := by
    rw [Mode.segment_summary, ← e.takeWhile_bytes_append rest]
    rfl
  have hsegment : e.fields.segment = override.getD (if e.onStack then .ss else .ds) := by
    rw [← hoverride]
    rfl
  have hstack : e.onStack = true ↔
      (∃ o ∈ (e.instruction address).operands.toList, o.source = .rm) ∧
        (base? = some "bp" ∨ base? = some "ebp") := by
    have hsources : .rm ∈ e.form.sources ↔
        ∃ o ∈ (e.instruction address).operands.toList, o.source = .rm := by
      have hform : e.form.sources = (e.instruction address).operands.toList.map (·.source) := rfl
      rw [hform, List.mem_map]
    rw [Encoding.onStack, Bool.and_eq_true, List.contains_iff_mem, hsources,
      ModRM.basedOnFrame_eq_true_iff]
    rfl
  refine ⟨hoverride, ?_, ?_, ?_⟩
  · intro s hs
    change e.fields.segment = s
    rw [hsegment, hs, Option.getD_some]
  · intro hnone
    change (e.fields.segment = .ss ↔ _) ∧ (e.fields.segment = .ss ∨ e.fields.segment = .ds)
    rw [hsegment, hnone, Option.getD_none, ← hstack]
    cases e.onStack with
    | true => exact ⟨by simp, .inl rfl⟩
    | false => exact ⟨by simp, .inr rfl⟩
  · exact (e.printable address).memoryTexts_text fun o ho => e.printsMemory ho

theorem segment_of_decode_movs :
    ∃ i j : Instruction,
      decode .real [0x64, 0x2E, 0xA4, 0x90] 0x7C00 = .ok i ∧
      i.fields.segmentOverride = some .cs ∧ i.fields.segment = .cs ∧
      Text.memoryTexts i.text = [("es:", "di"), ("cs:", "si")] ∧
      decode .flat [0x8B, 0x45, 0xF8] 0x1000 = .ok j ∧ j.fields.segmentOverride = none ∧
      j.fields.segment = .ss := by
  obtain ⟨i, hi⟩ : ∃ i, decode .real [0x64, 0x2E, 0xA4, 0x90] 0x7C00 = .ok i := ⟨_, rfl⟩
  obtain ⟨j, hj⟩ : ∃ j, decode .flat [0x8B, 0x45, 0xF8] 0x1000 = .ok j := ⟨_, rfl⟩
  obtain ⟨hoverride, hsegment, -, htexts⟩ := segment_of_decode hi
  obtain ⟨hnone, -, hdefault, -⟩ := segment_of_decode hj
  have hcs : ((Mode.real.leadingPrefixes [0x64, 0x2E, 0xA4, 0x90]).filterMap
      Mode.real.processor.segment?).getLast? = some .cs := by decide +kernel
  have hempty : ((Mode.flat.leadingPrefixes [0x8B, 0x45, 0xF8]).filterMap
      Mode.flat.processor.segment?).getLast? = none := by decide +kernel
  have hmemory : (i.operands.toList.filterMap i.memory?).map (fun m => (m.1.name ++ ":", m.2)) =
      [("es:", "di"), ("cs:", "si")] := by
    obtain rfl := Except.ok.inj hi
    decide +kernel
  have hbase : (∃ o ∈ j.operands.toList, o.source = .rm) ∧
      (j.fields.modrm.base? j.fields.addressSize j.fields.sib = some "bp" ∨
        j.fields.modrm.base? j.fields.addressSize j.fields.sib = some "ebp") := by
    obtain rfl := Except.ok.inj hj
    decide +kernel
  exact ⟨i, j, hi, hoverride.trans hcs, hsegment _ hcs, htexts.trans hmemory, hj,
    hnone.trans hempty, (hdefault hempty).1.mpr hbase⟩

end X86Disassembly
