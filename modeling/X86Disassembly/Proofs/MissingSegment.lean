import X86Disassembly.Proofs.ProcessorMaps

/-!
# Segment registers that a processor does not have

The two moves of a segment register list their operands in opposite order, and operands are read in
the order of the list. A load into a segment register that the processor does not have is refused at
once, with nothing read behind the ModRM byte. A store from one is refused only after its memory
operand: it is truncated where that operand is, too long where that operand is, and else reported
with all bytes of the operand.
-/

namespace X86Disassembly

/-- The outcome when bytes that are read as far as this are no instruction after all. -/
def Outcome.refused (bytes : List UInt8) : Outcome → Outcome
  | .ok i => .error ⟨i.address, .undefined (bytes.take i.length)⟩
  | .error ⟨a, .undefined read⟩ => .error ⟨a, .undefined (bytes.take read.length)⟩
  | .error e => .error e

namespace Fetch

variable {α : Type} {address : UInt32}

lemma resume_bind_undefined (plan : Fetch α) (g : α → Body) {first second : List UInt8}
    (hlength : first.length = second.length) (rest : List UInt8) :
    (plan >>= fun _ => undefined).resume first rest address =
      ((plan >>= fun a => done (g a)).resume second rest address).refused (first ++ rest) := by
  induction plan generalizing first second rest with
  | done a =>
    change (undefined : Fetch Body).resume _ _ _ = ((done (g a)).resume _ _ _).refused _
    rw [resume_undefined, resume_done, Outcome.refused, ← hlength, List.take_left]
  | undefined =>
    change (undefined : Fetch Body).resume _ _ _ = ((undefined : Fetch Body).resume _ _ _).refused _
    rw [resume_undefined, resume_undefined, Outcome.refused, ← hlength, List.take_left]
  | overlong => rfl
  | take count next ih =>
    change (take count fun bytes => next bytes >>= fun _ => undefined).resume _ _ _ =
      ((take count fun bytes => next bytes >>= fun a => done (g a)).resume _ _ _).refused _
    by_cases hfull : maxLength < first.length + count
    · rw [resume_take_of_full hfull, resume_take_of_full (hlength ▸ hfull)]
      rfl
    by_cases hshort : rest.length < count
    · rw [resume_take_of_short (by omega) hshort, resume_take_of_short (by omega) hshort, hlength]
      rfl
    obtain ⟨bytes, rest, rfl⟩ := exists_vector_append (Nat.not_lt.mp hshort)
    rw [resume_take_append (by omega), resume_take_append (by omega), ← List.append_assoc]
    apply ih
    rw [List.length_append, List.length_append, hlength]

lemma resume_take_ne_undefined {count : Nat} (hcount : 1 ≤ count)
    (next : Vector UInt8 count → Fetch Body) {taken : List UInt8}
    (start : taken.length ≤ maxLength) (rest : List UInt8) :
    (take count next).resume taken rest address ≠ .error ⟨address, .undefined taken⟩ := by
  obtain ⟨read, more, left, result, -, hread, hhalt, heq⟩ :=
    (take count next).exists_resume_eq start rest address
  rw [heq]
  cases hhalt with
  | done body => nofun
  | undefined =>
    cases hread with
    | take bytes _ =>
      intro h
      have hlength : (taken ++ (bytes.toList ++ _)).length = taken.length :=
        congrArg List.length (Fault.undefined.inj (DecodeError.mk.inj (Except.error.inj h)).2)
      rw [List.length_append, List.length_append, Vector.length_toList] at hlength
      omega
  | overlong => nofun
  | full => nofun
  | short => nofun

end Fetch

/-- Neither a SIB byte nor a displacement follows the ModRM byte. -/
def ModRM.isBare (m : ModRM) (size : AddressSize) : Bool :=
  !m.hasSib size && m.displacementBytes size (Sib.ofByte 0) == 0

namespace Decode

lemma readDisplacement_cases (f : Fields) (d : Displacement) :
    d.bytes = 0 ∧ (∃ g, readDisplacement f d = .done g) ∨
      1 ≤ d.bytes ∧ ∃ next, readDisplacement f d = .take d.bytes next := by
  cases d with
  | none => exact .inl ⟨rfl, _, rfl⟩
  | byte => exact .inr ⟨by decide, _, rfl⟩
  | word => exact .inr ⟨by decide, _, rfl⟩
  | dword => exact .inr ⟨by decide, _, rfl⟩

lemma readRegisterOrMemory_cases (f : Fields) :
    f.modrm.isBare f.addressSize = true ∧ (∃ g, readRegisterOrMemory f = .done g) ∨
      f.modrm.isBare f.addressSize = false ∧
        ∃ count next, 1 ≤ count ∧ readRegisterOrMemory f = .take count next := by
  have htable := Addressing.describes_ofModRM f.addressSize f.modrm (Sib.ofByte 0)
  unfold readRegisterOrMemory ModRM.isBare
  cases ha : Addressing.ofModRM f.addressSize f.modrm with
  | register r =>
    rw [ha] at htable
    simp only [Addressing.describes, Bool.and_eq_true, Bool.not_eq_true', beq_iff_eq] at htable
    obtain ⟨⟨⟨-, hno⟩, -⟩, hzero⟩ := htable
    rw [hno, hzero]
    exact .inl ⟨rfl, _, rfl⟩
  | scaled d =>
    rw [ha] at htable
    simp only [Addressing.describes, Bool.and_eq_true] at htable
    obtain ⟨⟨⟨hyes, -⟩, -⟩, -⟩ := htable
    rw [hyes]
    exact .inr ⟨rfl, 1, _, Nat.le_refl 1, rfl⟩
  | _ =>
    rw [ha] at htable
    simp only [Addressing.describes, Bool.and_eq_true, Bool.not_eq_true', beq_iff_eq] at htable
    obtain ⟨⟨⟨hno, -⟩, hbytes⟩, -⟩ := htable
    rw [hno, ← hbytes]
    rcases readDisplacement_cases _ _ with ⟨hzero, hdone⟩ | ⟨hpos, next, htake⟩
    · exact .inl ⟨by rw [hzero]; rfl, hdone⟩
    · refine .inr ⟨?_, _, next, hpos, htake⟩
      rw [Bool.not_false, Bool.true_and, beq_eq_false_iff_ne]
      exact Nat.ne_of_gt hpos

lemma readRegisterOrMemory_of_modrm {f : Fields} {n : UInt8}
    (hmode : (ModRM.ofByte n).mode = f.modrm.mode) (hrm : (ModRM.ofByte n).rm = f.modrm.rm) :
    readRegisterOrMemory { f with modrmByte := n } =
      readRegisterOrMemory f >>= fun g => .done { g with modrmByte := n } := by
  have hdisplacement : ∀ (g : Fields) (d : Displacement),
      readDisplacement { g with modrmByte := n } d =
        readDisplacement g d >>= fun g => .done { g with modrmByte := n } := by
    intro g d
    cases d <;> rfl
  have hplain := fun a : Addressing =>
    hdisplacement { f with segment := f.segmentOverride.getD a.defaultSegment } a.displacement
  have haddressing : Addressing.ofModRM f.addressSize (ModRM.ofByte n) =
      Addressing.ofModRM f.addressSize f.modrm := by
    unfold Addressing.ofModRM
    rw [hmode, hrm]
  have hmodrm : ({ f with modrmByte := n } : Fields).modrm = ModRM.ofByte n := rfl
  unfold readRegisterOrMemory
  rw [hmodrm]
  dsimp only
  rw [haddressing, hmode]
  cases Addressing.ofModRM f.addressSize f.modrm with
  | register r => rfl
  | scaled d =>
    change Fetch.take 1 _ = Fetch.take 1 _
    congr 1
    funext bytes
    exact hdisplacement { f with sibByte := bytes[0], segment := _ } _
  | direct d => exact hplain (.direct d)
  | based b d => exact hplain (.based b d)
  | basedIndexed b i d => exact hplain (.basedIndexed b i d)

variable {p : Processor} {start : Fields}

lemma readOperands_segmentLoad (h : p.segmentRegisters ≤ start.modrm.reg.val) :
    readOperands p (.of .movSreg [.sw, .ew]) start = .undefined := by
  have hfirst : readOperand p start (Template.sw.instantiate start.operandSize) = .undefined :=
    if_neg (Nat.not_lt.mpr h)
  change readOperand p start (Template.sw.instantiate start.operandSize) >>= _ >>= _ = _
  rw [hfirst]
  rfl

lemma readOperands_segmentStore (p : Processor) (start : Fields) :
    readOperands p (.of .movSreg [.ew, .sw]) start = readRegisterOrMemory start >>= fun f =>
      if start.modrm.reg.val < p.segmentRegisters then
        .done ⟨.movSreg, (Form.of .movSreg [.ew, .sw]).operands.map
          (·.instantiate start.operandSize), f⟩
      else .undefined := by
  change readRegisterOrMemory start >>= _ >>= _ = _
  rw [Fetch.bind_assoc]
  apply Fetch.bind_congr_of_leads
  intro bytes f hread
  have hsecond : readOperand p f (Template.sw.instantiate start.operandSize) =
      if start.modrm.reg.val < p.segmentRegisters then .done f else .undefined := by
    rw [← modrm_of_leads_readRegisterOrMemory hread]
    rfl
  change readOperand p f (Template.sw.instantiate start.operandSize) >>= _ >>= _ = _
  rw [hsecond]
  split <;> rfl

end Decode

section Moves

variable {mode : Mode} {prefixes : List UInt8} {op m : UInt8} {form : Form}
  (hprefixes : ∀ b ∈ prefixes, (mode.processor.modifier? b).isSome)
  (hroom : prefixes.length ≤ 13)

include hprefixes hroom

lemma decode_prefixes_append_form (hlead : mode.processor.lead op = .opcode (.form form))
    (huses : form.usesModRM = true) (m : UInt8) (t : List UInt8) (address : UInt32) :
    decode mode (prefixes ++ op :: m :: t) address =
      (Decode.readOperands mode.processor form (Decode.startFields mode (mode.summary prefixes)
        m)).resume (prefixes ++ [op, m]) t address := by
  have hop : mode.processor.modifier? op = none := by
    rw [Processor.modifier?, hlead]
  have hlength : (prefixes ++ [op]).length = prefixes.length + 1 := by simp
  have hmax : maxLength = 15 := rfl
  rw [decode_prefixes_append_cons mode hprefixes hop, if_neg (by omega), hlead,
    Decode.readLead_form huses, Fetch.resume_byte_bind, if_neg (by omega)]
  dsimp only
  rw [List.append_assoc, List.singleton_append]

lemma decode_segmentLoad (hreg : mode.processor.segmentRegisters ≤ (ModRM.ofByte m).reg.val)
    (t : List UInt8) (address : UInt32) :
    decode mode (prefixes ++ 0x8E :: m :: t) address =
      .error ⟨address, .undefined (prefixes ++ [0x8E, m])⟩ := by
  rw [decode_prefixes_append_form hprefixes hroom (Processor.lead_segmentLoad _) rfl,
    Decode.readOperands_segmentLoad hreg, Fetch.resume_undefined]

lemma decode_segmentStore (hreg : mode.processor.segmentRegisters ≤ (ModRM.ofByte m).reg.val)
    (t : List UInt8) (address : UInt32) :
    decode mode (prefixes ++ 0x8C :: m :: t) address =
      (Decode.readRegisterOrMemory (Decode.startFields mode (mode.summary prefixes) m) >>=
        fun _ => .undefined).resume (prefixes ++ [0x8C, m]) t address := by
  have hmissing : ¬(Decode.startFields mode (mode.summary prefixes) m).modrm.reg.val <
      mode.processor.segmentRegisters := Nat.not_lt.mpr hreg
  rw [decode_prefixes_append_form hprefixes hroom (Processor.lead_segmentStore _) rfl,
    Decode.readOperands_segmentStore]
  simp only [if_neg hmissing]

/-- A store from a missing segment register comes out as one from another segment register does,
but for being refused in the end. -/
lemma decode_segmentStore_eq_refused
    (hreg : mode.processor.segmentRegisters ≤ (ModRM.ofByte m).reg.val) {n : UInt8}
    (hmode : (ModRM.ofByte n).mode = (ModRM.ofByte m).mode)
    (hrm : (ModRM.ofByte n).rm = (ModRM.ofByte m).rm)
    (hlt : (ModRM.ofByte n).reg.val < mode.processor.segmentRegisters) (t : List UInt8)
    (address : UInt32) :
    decode mode (prefixes ++ 0x8C :: m :: t) address =
      (decode mode (prefixes ++ 0x8C :: n :: t) address).refused (prefixes ++ 0x8C :: m :: t) := by
  have hpresent : (Decode.startFields mode (mode.summary prefixes) n).modrm.reg.val <
      mode.processor.segmentRegisters := hlt
  have hlength : (prefixes ++ [0x8C, m]).length = (prefixes ++ [0x8C, n]).length := by simp
  have hbytes : prefixes ++ 0x8C :: m :: t = prefixes ++ [0x8C, m] ++ t := by simp
  have hread : Decode.readRegisterOrMemory (Decode.startFields mode (mode.summary prefixes) n) = _ :=
    Decode.readRegisterOrMemory_of_modrm
      (f := Decode.startFields mode (mode.summary prefixes) m) hmode hrm
  rw [decode_segmentStore hprefixes hroom hreg,
    decode_prefixes_append_form hprefixes hroom (Processor.lead_segmentStore _) rfl,
    Decode.readOperands_segmentStore]
  simp only [if_pos hpresent]
  rw [hread, Fetch.bind_assoc, hbytes]
  exact Fetch.resume_bind_undefined _ _ hlength t

lemma decode_segmentStore_ne_ok
    (hreg : mode.processor.segmentRegisters ≤ (ModRM.ofByte m).reg.val) (t : List UInt8)
    (address : UInt32) (i : Instruction) :
    decode mode (prefixes ++ 0x8C :: m :: t) address ≠ .ok i := by
  intro h
  rw [decode_segmentStore hprefixes hroom hreg] at h
  obtain ⟨read, body, hread⟩ := Fetch.exists_leads_of_resume_eq_ok h
  obtain ⟨first, second, f, -, -, hrest⟩ := Fetch.leads_bind_done_iff.mp hread
  nomatch hrest

lemma decode_segmentStore_eq_undefined_iff
    (hreg : mode.processor.segmentRegisters ≤ (ModRM.ofByte m).reg.val) (t : List UInt8)
    (address : UInt32) :
    decode mode (prefixes ++ 0x8C :: m :: t) address =
        .error ⟨address, .undefined (prefixes ++ [0x8C, m])⟩ ↔
      (ModRM.ofByte m).isBare (mode.addressSizeAfter prefixes) = true := by
  have hbare : (Decode.startFields mode (mode.summary prefixes) m).modrm.isBare
      (Decode.startFields mode (mode.summary prefixes) m).addressSize =
      (ModRM.ofByte m).isBare (mode.addressSizeAfter prefixes) := rfl
  rw [decode_segmentStore hprefixes hroom hreg, ← hbare]
  rcases Decode.readRegisterOrMemory_cases (Decode.startFields mode (mode.summary prefixes) m) with
    ⟨hyes, f, hread⟩ | ⟨hno, count, next, hpos, hread⟩
  · rw [hread, hyes]
    exact iff_of_true rfl rfl
  · rw [hread, hno]
    refine iff_of_false ?_ Bool.false_ne_true
    have hlength : (prefixes ++ [0x8C, m]).length = prefixes.length + 2 := by simp
    have hmax : maxLength = 15 := rfl
    exact Fetch.resume_take_ne_undefined hpos _ (by omega) t

end Moves

/-- A segment register that the processor does not have is refused. The load into it is an undefined
instruction of its opcode and ModRM byte alone, whatever follows. The store from it is so exactly
when nothing belongs to the ModRM byte; in general it has the outcome of a store from a segment
register that there is, with an undefined instruction of as many bytes in place of the
instruction. -/
theorem decode_missing_segment (mode : Mode) (address : UInt32) {prefixes : List UInt8}
    (hprefixes : ∀ b ∈ prefixes, (mode.processor.modifier? b).isSome)
    (hroom : prefixes.length ≤ 13) {m : UInt8}
    (hreg : mode.processor.segmentRegisters ≤ (ModRM.ofByte m).reg.val) (t : List UInt8) :
    decode mode (prefixes ++ 0x8E :: m :: t) address =
      .error ⟨address, .undefined (prefixes ++ [0x8E, m])⟩ ∧
    (decode mode (prefixes ++ 0x8C :: m :: t) address =
        .error ⟨address, .undefined (prefixes ++ [0x8C, m])⟩ ↔
      (ModRM.ofByte m).isBare (mode.addressSizeAfter prefixes) = true) ∧
    (∀ i, decode mode (prefixes ++ 0x8C :: m :: t) address ≠ .ok i) ∧
    ∀ n, (ModRM.ofByte n).mode = (ModRM.ofByte m).mode → (ModRM.ofByte n).rm = (ModRM.ofByte m).rm →
      (ModRM.ofByte n).reg.val < mode.processor.segmentRegisters →
      decode mode (prefixes ++ 0x8C :: m :: t) address =
        (decode mode (prefixes ++ 0x8C :: n :: t) address).refused
          (prefixes ++ 0x8C :: m :: t) :=
  ⟨decode_segmentLoad hprefixes hroom hreg t address,
    decode_segmentStore_eq_undefined_iff hprefixes hroom hreg t address,
    decode_segmentStore_ne_ok hprefixes hroom hreg t address,
    fun _ hmode hrm hlt =>
      decode_segmentStore_eq_refused hprefixes hroom hreg hmode hrm hlt t address⟩

theorem decode_missing_segment_seventh :
    decode .real [0x26, 0x8E, 0x36] 0 = .error ⟨0, .undefined [0x26, 0x8E, 0x36]⟩ ∧
    decode .real [0x26, 0x8C, 0xF0, 0x90] 0 = .error ⟨0, .undefined [0x26, 0x8C, 0xF0]⟩ ∧
    decode .real [0x26, 0x8C, 0x36, 0x34, 0x12, 0x90] 0 =
      .error ⟨0, .undefined [0x26, 0x8C, 0x36, 0x34, 0x12]⟩ := by
  have hprefixes : ∀ b ∈ [(0x26 : UInt8)], (Mode.real.processor.modifier? b).isSome := by
    decide +kernel
  obtain ⟨hload, -⟩ := decode_missing_segment .real 0 hprefixes (by decide) (m := 0x36)
    (by decide) []
  obtain ⟨-, hregister, -⟩ := decode_missing_segment .real 0 hprefixes (by decide) (m := 0xF0)
    (by decide) [0x90]
  obtain ⟨-, -, -, hmemory⟩ := decode_missing_segment .real 0 hprefixes (by decide) (m := 0x36)
    (by decide) [0x34, 0x12, 0x90]
  refine ⟨hload, hregister.mpr (by decide +kernel), ?_⟩
  exact hmemory 0x06 rfl rfl (by decide)

/-- A store from the seventh segment register is truncated where its memory operand is, and not
refused, although its opcode and its ModRM byte are there. -/
theorem decode_missing_segment_truncated :
    Mode.real.processor.segmentRegisters ≤ (ModRM.ofByte 0x36).reg.val ∧
    decode .real [0x8C, 0x36] 0 = .error ⟨0, .truncated 4 2⟩ ∧
    decode .real [0x8C, 0x36] 0 ≠ .error ⟨0, .undefined [0x8C, 0x36]⟩ := by
  decide +kernel

end X86Disassembly
