import X86Disassembly.Proofs.Encoding
import X86Disassembly.Proofs.Reading

/-!
# Reading operands

The operands of a form are read one after another, each from its parts of the code and into the
fields that belong to them. What is read in this way from the parts of an encoding, put together in
the order of the code, are the fields of the encoding.
-/

namespace X86Disassembly

namespace Operand

lemma width_eq_zero (o : Operand) (size : AddressSize) (m : ModRM) (sib : Sib) {part : Part}
    (h : part ∉ o.source.parts) : o.width size m sib part = 0 := by
  cases part <;> cases hs : o.source <;> simp_all [width, Source.parts]

lemma width_le (o : Operand) (size : AddressSize) (m : ModRM) (sib : Sib) (part : Part) :
    o.width size m sib part ≤ 4 := by
  have himmediate := o.size.immediateBytes_le
  have hoffset := size.bytes_le
  have hdisplacement := m.displacementBytes_le size sib
  cases part with
  | sib =>
    rw [width]
    split <;> decide
  | displacement =>
    cases hs : o.source <;> simp [width, hs, himmediate, hoffset, hdisplacement]
  | immediate => cases hs : o.source <;> simp [width, hs, himmediate]
  | immediate2 => cases hs : o.source <;> simp [width, hs, himmediate]

lemma sum_width_eq_zero {ops : List Operand} (size : AddressSize) (m : ModRM) (sib : Sib)
    {part : Part} (h : part ∉ ops.flatMap (·.source.parts)) :
    (ops.map (·.width size m sib part)).sum = 0 := by
  rw [List.sum_eq_zero_iff_forall_eq_nat]
  intro n hn
  obtain ⟨b, hb, rfl⟩ := List.mem_map.mp hn
  exact width_eq_zero b size m sib fun hpart => h (List.mem_flatMap.mpr ⟨b, hb, hpart⟩)

lemma sum_width_eq {ops : List Operand} (hops : (ops.flatMap (·.source.parts)).Nodup)
    (size : AddressSize) (m : ModRM) (sib : Sib) {part : Part} {o : Operand} (ho : o ∈ ops)
    (hpart : part ∈ o.source.parts) :
    (ops.map (·.width size m sib part)).sum = o.width size m sib part := by
  induction ops with
  | nil => cases ho
  | cons a ops ih =>
    rw [List.flatMap_cons, List.nodup_append] at hops
    obtain ⟨-, hrest, hne⟩ := hops
    rw [List.map_cons, List.sum_cons]
    by_cases ha : part ∈ a.source.parts
    · have hnot : part ∉ ops.flatMap (·.source.parts) := fun hmem => hne part ha part hmem rfl
      obtain rfl : o = a := by
        rcases List.mem_cons.mp ho with rfl | ho
        · rfl
        · exact absurd (List.mem_flatMap.mpr ⟨o, ho, hpart⟩) hnot
      rw [sum_width_eq_zero size m sib hnot, Nat.add_zero]
    · have ho' : o ∈ ops := by
        rcases List.mem_cons.mp ho with rfl | ho
        · exact absurd hpart ha
        · exact ho
      rw [width_eq_zero a size m sib ha, Nat.zero_add]
      exact ih hrest ho'

end Operand

/-- What an addressing form says about the bytes after its ModRM byte and about its segment. -/
def Addressing.describes (a : Addressing) (size : AddressSize) (m : ModRM) (sib : Sib) : Bool :=
  let segment : Segment := if m.basedOnFrame size sib then .ss else .ds
  match a with
  | .register _ => m.isRegister && !m.hasSib size && !m.basedOnFrame size sib &&
      m.displacementBytes size sib == 0
  | .scaled d => m.hasSib size && !m.isRegister &&
      (sib.displacement m.mode d).bytes == m.displacementBytes size sib &&
      sib.defaultSegment m.mode == segment
  | a => !m.hasSib size && !m.isRegister &&
      a.displacement.bytes == m.displacementBytes size sib && a.defaultSegment == segment

lemma Addressing.describes_ofModRM (size : AddressSize) (m : ModRM) (sib : Sib) :
    (Addressing.ofModRM size m).describes size m sib = true := by
  have htable : ∀ (mode : Fin 4) (rm base : Fin 8),
      (Addressing.ofModRM size ⟨mode, 0, rm⟩).describes size ⟨mode, 0, rm⟩ ⟨0, 0, base⟩ = true := by
    cases size <;> decide +kernel
  exact htable m.mode m.rm sib.base

/-- The fields after a register-or-memory operand has been read from the payload. -/
def Fields.addressed (f : Fields) (x : Payload) : Fields :=
  if f.modrm.isRegister then { f with rmIsRegister := true }
  else
    { f with
      sibByte := if f.modrm.hasSib f.addressSize then x.sibByte else f.sibByte
      segment := f.segmentOverride.getD
        (if f.modrm.basedOnFrame f.addressSize (Sib.ofByte x.sibByte) then .ss else .ds)
      displacement := LittleEndian.signExtended x.displacement }

namespace Payload

/-- The fields after some operands, of the given sources, have been read from the payload. -/
def fieldsAfter (x : Payload) (isSigned : Bool) (start : Fields) (seen : List Source) : Fields :=
  let parts := seen.flatMap (·.parts)
  let offset := if isSigned then LittleEndian.signExtended x.displacement
    else LittleEndian.zeroExtended x.displacement
  let onStack := seen.contains .rm &&
    start.modrm.basedOnFrame start.addressSize (Sib.ofByte x.sibByte)
  { start with
    segment := start.segmentOverride.getD (if onStack then .ss else .ds)
    sibByte := if seen.contains .rm then x.sibByte else 0
    rmIsRegister := seen.contains .rmRegister || seen.contains .rm && start.modrm.isRegister
    displacement := if parts.contains .displacement then offset else 0
    immediate := if parts.contains .immediate then LittleEndian.zeroExtended x.immediate else 0
    immediate2 := if parts.contains .immediate2 then LittleEndian.zeroExtended x.immediate2 else 0 }

variable (x : Payload) (isSigned : Bool) (start : Fields) (seen : List Source)

@[simp] lemma fieldsAfter_addressSize :
    (x.fieldsAfter isSigned start seen).addressSize = start.addressSize := rfl

@[simp] lemma fieldsAfter_modrm : (x.fieldsAfter isSigned start seen).modrm = start.modrm := rfl

@[simp] lemma fieldsAfter_segmentOverride :
    (x.fieldsAfter isSigned start seen).segmentOverride = start.segmentOverride := rfl

lemma fieldsAfter_concat {s : Source} (hparts : s.parts = []) (hs : s ≠ .rmRegister) :
    x.fieldsAfter isSigned start (seen ++ [s]) = x.fieldsAfter isSigned start seen := by
  have hrm : s ≠ .rm := by
    rintro rfl
    cases hparts
  simp [fieldsAfter, hparts, hs.symm, hrm.symm]

lemma fieldsAfter_rmRegister : x.fieldsAfter isSigned start (seen ++ [.rmRegister]) =
    { x.fieldsAfter isSigned start seen with rmIsRegister := true } := by
  simp [fieldsAfter, Source.parts]

lemma fieldsAfter_immediate : x.fieldsAfter isSigned start (seen ++ [.immediate]) =
    { x.fieldsAfter isSigned start seen with
      immediate := LittleEndian.zeroExtended x.immediate } := by
  simp [fieldsAfter, Source.parts]

lemma fieldsAfter_immediate2 : x.fieldsAfter isSigned start (seen ++ [.immediate2]) =
    { x.fieldsAfter isSigned start seen with
      immediate2 := LittleEndian.zeroExtended x.immediate2 } := by
  simp [fieldsAfter, Source.parts]

lemma fieldsAfter_relative : x.fieldsAfter true start (seen ++ [.relative]) =
    { x.fieldsAfter true start seen with
      displacement := LittleEndian.signExtended x.displacement } := by
  simp [fieldsAfter, Source.parts]

lemma fieldsAfter_absolute : x.fieldsAfter false start (seen ++ [.absolute]) =
    { x.fieldsAfter false start seen with
      displacement := LittleEndian.zeroExtended x.displacement } := by
  simp [fieldsAfter, Source.parts]

lemma fieldsAfter_farPointer : x.fieldsAfter false start (seen ++ [.farPointer]) =
    { x.fieldsAfter false start seen with
      displacement := LittleEndian.zeroExtended x.displacement
      immediate := LittleEndian.zeroExtended x.immediate } := by
  simp [fieldsAfter, Source.parts]

lemma addressed_fieldsAfter
    (hsib : x.sib.length = if start.modrm.hasSib start.addressSize then 1 else 0)
    (hdisplacement : x.displacement.length =
      start.modrm.displacementBytes start.addressSize (Sib.ofByte x.sibByte)) :
    (x.fieldsAfter true start seen).addressed x = x.fieldsAfter true start (seen ++ [.rm]) := by
  unfold Fields.addressed
  rw [fieldsAfter_modrm, fieldsAfter_addressSize, fieldsAfter_segmentOverride]
  cases hregister : start.modrm.isRegister with
  | true =>
    obtain ⟨hno, hzero, hframe⟩ :=
      ModRM.empty_of_isRegister hregister start.addressSize (Sib.ofByte x.sibByte)
    rw [hno] at hsib
    rw [hzero] at hdisplacement
    have hbyte : x.sibByte = 0 := by
      rw [sibByte, List.eq_nil_of_length_eq_zero hsib]
      rfl
    have hoffset : LittleEndian.signExtended x.displacement = 0 := by
      rw [List.eq_nil_of_length_eq_zero hdisplacement]
      rfl
    rw [hbyte] at hframe
    simp [fieldsAfter, Source.parts, hframe, hregister, hbyte, hoffset]
  | false =>
    cases hhas : start.modrm.hasSib start.addressSize with
    | true => simp [fieldsAfter, Source.parts, hregister]
    | false =>
      rw [hhas] at hsib
      have hbyte : x.sibByte = 0 := by
        rw [sibByte, List.eq_nil_of_length_eq_zero hsib]
        rfl
      simp [fieldsAfter, Source.parts, hregister, hbyte]

end Payload

namespace Decode

lemma leads_readDisplacement (f : Fields) {d : Displacement} {bytes : List UInt8}
    (h : bytes.length = d.bytes) :
    (readDisplacement f d).Leads bytes
      (.done { f with displacement := LittleEndian.signExtended bytes }) := by
  cases d with
  | none =>
    obtain rfl : bytes = [] := List.eq_nil_of_length_eq_zero h
    exact .refl _
  | byte => exact (Fetch.leads_signed h).bind _
  | word => exact (Fetch.leads_signed h).bind _
  | dword => exact (Fetch.leads_signed h).bind _

lemma leads_readRegisterOrMemory (f : Fields) (x : Payload)
    (hsib : x.sib.length = if f.modrm.hasSib f.addressSize then 1 else 0)
    (hdisplacement : x.displacement.length =
      f.modrm.displacementBytes f.addressSize (Sib.ofByte x.sibByte)) :
    (readRegisterOrMemory f).Leads (x.sib ++ x.displacement) (.done (f.addressed x)) := by
  have htable := Addressing.describes_ofModRM f.addressSize f.modrm (Sib.ofByte x.sibByte)
  unfold readRegisterOrMemory Fields.addressed
  -- Forms without a SIB byte are read alike, whatever their registers are.
  have hplain : ∀ a : Addressing, (!f.modrm.hasSib f.addressSize && !f.modrm.isRegister &&
      a.displacement.bytes == f.modrm.displacementBytes f.addressSize (Sib.ofByte x.sibByte) &&
      a.defaultSegment == if f.modrm.basedOnFrame f.addressSize (Sib.ofByte x.sibByte) then
        Segment.ss else .ds) = true →
      (readDisplacement { f with segment := f.segmentOverride.getD a.defaultSegment }
        a.displacement).Leads (x.sib ++ x.displacement) (.done (f.addressed x)) := by
    intro a h
    simp only [Bool.and_eq_true, Bool.not_eq_true', beq_iff_eq] at h
    obtain ⟨⟨⟨hno, hregister⟩, hbytes⟩, hsegment⟩ := h
    rw [hno] at hsib
    have hnil : x.sib = [] := List.eq_nil_of_length_eq_zero hsib
    rw [hnil, List.nil_append, Fields.addressed, hregister, hno, ← hsegment]
    exact leads_readDisplacement _ (hdisplacement.trans hbytes.symm)
  cases ha : Addressing.ofModRM f.addressSize f.modrm with
  | register r =>
    rw [ha] at htable
    simp only [Addressing.describes, Bool.and_eq_true, Bool.not_eq_true', beq_iff_eq] at htable
    obtain ⟨⟨⟨hregister, hno⟩, -⟩, hzero⟩ := htable
    rw [hzero] at hdisplacement
    rw [hno] at hsib
    have hsib' : x.sib = [] := List.eq_nil_of_length_eq_zero hsib
    have hdisplacement' : x.displacement = [] := List.eq_nil_of_length_eq_zero hdisplacement
    rw [hsib', hdisplacement', if_pos hregister]
    exact .refl _
  | scaled d =>
    rw [ha] at htable
    simp only [Addressing.describes, Bool.and_eq_true, Bool.not_eq_true', beq_iff_eq] at htable
    obtain ⟨⟨⟨hyes, hregister⟩, hbytes⟩, hsegment⟩ := htable
    rw [hyes] at hsib
    obtain ⟨b, hb⟩ : ∃ b, x.sib = [b] := List.length_eq_one_iff.mp hsib
    have hbyte : x.sibByte = b := by rw [Payload.sibByte, hb]; rfl
    rw [hbyte] at hbytes hsegment hdisplacement ⊢
    rw [hb, hregister, hyes, ← hsegment]
    exact (Fetch.leads_byte b).followed (leads_readDisplacement _ (hdisplacement.trans hbytes.symm))
  | direct d =>
    rw [ha] at htable
    exact hplain _ htable
  | based b d =>
    rw [ha] at htable
    exact hplain _ htable
  | basedIndexed b i d =>
    rw [ha] at htable
    exact hplain _ htable

lemma leads_readOperand (p : Processor) (x : Payload) (isSigned : Bool) (start : Fields)
    (seen : List Source) (o : Operand)
    (hwidth : ∀ part ∈ o.source.parts, (x.part part).length =
      o.width start.addressSize start.modrm (Sib.ofByte x.sibByte) part)
    (hsigned : .displacement ∈ o.source.parts → o.source.isSigned = isSigned)
    (hreg : o.source = .regSegment → start.modrm.reg.val < p.segmentRegisters) :
    (readOperand p (x.fieldsAfter isSigned start seen) o).Leads (o.source.parts.flatMap x.part)
      (.done (x.fieldsAfter isSigned start (seen ++ [o.source]))) := by
  unfold readOperand
  cases hs : o.source with
  | rm =>
    rw [hs] at hwidth hsigned
    obtain rfl : true = isSigned := hsigned (by decide)
    have hsib := hwidth .sib (by decide)
    have hdisplacement := hwidth .displacement (by decide)
    simp only [Payload.part, Operand.width, hs, true_and] at hsib hdisplacement
    rw [← Payload.addressed_fieldsAfter x start seen hsib hdisplacement]
    have hlead := leads_readRegisterOrMemory (x.fieldsAfter true start seen) x hsib hdisplacement
    simpa [Source.parts, Payload.part] using hlead
  | regSegment =>
    dsimp only
    rw [Payload.fieldsAfter_modrm, if_pos (hreg hs), Payload.fieldsAfter_concat]
    · exact .refl _
    · rfl
    · nofun
  | immediate =>
    rw [hs] at hwidth
    have hlength := hwidth .immediate (by decide)
    simp only [Payload.part, Operand.width, hs] at hlength
    rw [Payload.fieldsAfter_immediate, Source.parts, List.flatMap_singleton]
    exact (Fetch.leads_unsigned hlength).bind _
  | immediate2 =>
    rw [hs] at hwidth
    have hlength := hwidth .immediate2 (by decide)
    simp only [Payload.part, Operand.width, hs] at hlength
    rw [Payload.fieldsAfter_immediate2, Source.parts, List.flatMap_singleton]
    exact (Fetch.leads_unsigned hlength).bind _
  | relative =>
    rw [hs] at hwidth hsigned
    obtain rfl : true = isSigned := hsigned (by decide)
    have hlength := hwidth .displacement (by decide)
    simp only [Payload.part, Operand.width, hs] at hlength
    rw [Payload.fieldsAfter_relative, Source.parts, List.flatMap_singleton]
    exact (Fetch.leads_signed hlength).bind _
  | absolute =>
    rw [hs] at hwidth hsigned
    obtain rfl : false = isSigned := hsigned (by decide)
    have hlength := hwidth .displacement (by decide)
    simp only [Payload.part, Operand.width, hs] at hlength
    rw [Payload.fieldsAfter_absolute, Source.parts, List.flatMap_singleton]
    exact (Fetch.leads_unsigned hlength).bind _
  | farPointer =>
    rw [hs] at hwidth hsigned
    obtain rfl : false = isSigned := hsigned (by decide)
    have hoffset := hwidth .displacement (by decide)
    have hselector := hwidth .immediate (by decide)
    simp only [Payload.part, Operand.width, hs] at hoffset hselector
    rw [Payload.fieldsAfter_farPointer, Source.parts, List.flatMap_cons, List.flatMap_singleton]
    exact (Fetch.leads_unsigned hoffset).followed ((Fetch.leads_unsigned hselector).bind _)
  | rmRegister =>
    rw [Payload.fieldsAfter_rmRegister]
    exact .refl _
  | _ =>
    rw [Payload.fieldsAfter_concat]
    · exact .refl _
    · rfl
    · nofun

lemma leads_foldlM_readOperand (p : Processor) (x : Payload) (isSigned : Bool) (start : Fields)
    (seen : List Source) (ops : List Operand)
    (hwidth : ∀ o ∈ ops, ∀ part ∈ o.source.parts, (x.part part).length =
      o.width start.addressSize start.modrm (Sib.ofByte x.sibByte) part)
    (hsigned : ∀ o ∈ ops, .displacement ∈ o.source.parts → o.source.isSigned = isSigned)
    (hreg : ∀ o ∈ ops, o.source = .regSegment → start.modrm.reg.val < p.segmentRegisters) :
    (ops.foldlM (readOperand p) (x.fieldsAfter isSigned start seen)).Leads
      ((ops.flatMap (·.source.parts)).flatMap x.part)
      (.done (x.fieldsAfter isSigned start (seen ++ ops.map (·.source)))) := by
  induction ops generalizing seen with
  | nil =>
    rw [List.map_nil, List.append_nil]
    exact .refl _
  | cons o ops ih =>
    have hfirst := leads_readOperand p x isSigned start seen o (hwidth o List.mem_cons_self)
      (hsigned o List.mem_cons_self) (hreg o List.mem_cons_self)
    have hrest := ih (seen ++ [o.source])
      (fun o' ho' => hwidth o' (List.mem_cons_of_mem o ho'))
      (fun o' ho' => hsigned o' (List.mem_cons_of_mem o ho'))
      (fun o' ho' => hreg o' (List.mem_cons_of_mem o ho'))
    rw [List.append_assoc, List.singleton_append] at hrest
    rw [List.foldlM_cons, List.flatMap_cons, List.flatMap_append, List.map_cons]
    exact hfirst.followed hrest

lemma modrm_of_leads_readDisplacement {f f' : Fields} {d : Displacement} {bytes : List UInt8}
    (h : (readDisplacement f d).Leads bytes (.done f')) : f'.modrm = f.modrm := by
  cases d with
  | none =>
    obtain ⟨-, rfl⟩ := Fetch.leads_done_iff.mp h
    rfl
  | _ =>
    obtain ⟨a, rfl⟩ := Fetch.exists_eq_of_leads_bind h
    rfl

lemma modrm_of_leads_readRegisterOrMemory {f f' : Fields} {bytes : List UInt8}
    (h : (readRegisterOrMemory f).Leads bytes (.done f')) : f'.modrm = f.modrm := by
  unfold readRegisterOrMemory at h
  cases ha : Addressing.ofModRM f.addressSize f.modrm with
  | register r =>
    rw [ha] at h
    obtain ⟨-, rfl⟩ := Fetch.leads_done_iff.mp h
    rfl
  | scaled d =>
    rw [ha] at h
    obtain ⟨b, rest, -, hrest⟩ := Fetch.leads_byte_bind_iff.mp h
    have hmodrm := modrm_of_leads_readDisplacement hrest
    exact hmodrm
  | _ =>
    rw [ha] at h
    have hmodrm := modrm_of_leads_readDisplacement h
    exact hmodrm

lemma modrm_of_leads_readOperand {p : Processor} {f f' : Fields} {o : Operand} {bytes : List UInt8}
    (h : (readOperand p f o).Leads bytes (.done f')) :
    f'.modrm = f.modrm ∧ (o.source = .regSegment → f.modrm.reg.val < p.segmentRegisters) := by
  unfold readOperand at h
  cases hs : o.source with
  | regSegment =>
    rw [hs] at h
    by_cases hreg : f.modrm.reg.val < p.segmentRegisters
    · dsimp only at h
      rw [if_pos hreg] at h
      obtain ⟨-, rfl⟩ := Fetch.leads_done_iff.mp h
      exact ⟨rfl, fun _ => hreg⟩
    · dsimp only at h
      rw [if_neg hreg] at h
      nomatch h
  | rm =>
    rw [hs] at h
    exact ⟨modrm_of_leads_readRegisterOrMemory h, nofun⟩
  | immediate | immediate2 | relative | absolute =>
    rw [hs] at h
    obtain ⟨a, rfl⟩ := Fetch.exists_eq_of_leads_bind h
    exact ⟨rfl, nofun⟩
  | farPointer =>
    rw [hs] at h
    obtain ⟨first, second, offset, -, -, hrest⟩ := Fetch.leads_bind_done_iff.mp h
    obtain ⟨selector, rfl⟩ := Fetch.exists_eq_of_leads_bind hrest
    exact ⟨rfl, nofun⟩
  | _ =>
    rw [hs] at h
    obtain ⟨-, rfl⟩ := Fetch.leads_done_iff.mp h
    exact ⟨rfl, nofun⟩

lemma reg_lt_of_leads_foldlM {p : Processor} {ops : List Operand} {f f' : Fields}
    {bytes : List UInt8} (h : (ops.foldlM (readOperand p) f).Leads bytes (.done f'))
    (hreg : .regSegment ∈ ops.map (·.source)) : f.modrm.reg.val < p.segmentRegisters := by
  induction ops generalizing f bytes with
  | nil => cases hreg
  | cons o ops ih =>
    rw [List.foldlM_cons] at h
    obtain ⟨first, second, g, -, hfirst, hrest⟩ := Fetch.leads_bind_done_iff.mp h
    obtain ⟨hmodrm, hlt⟩ := modrm_of_leads_readOperand hfirst
    rcases List.mem_cons.mp hreg with hs | hreg
    · exact hlt hs.symm
    · rw [← hmodrm]
      exact ih hrest hreg

end Decode

lemma Form.map_source_operandsAt (f : Form) (size : OperandSize) :
    (f.operandsAt size).map (·.source) = f.sources := rfl

lemma Form.flatMap_parts_operandsAt (f : Form) (size : OperandSize) :
    (f.operandsAt size).flatMap (·.source.parts) = f.parts := rfl

lemma nodup_of_mem_partLists : ∀ parts ∈ partLists, parts.Nodup := by
  decide

lemma Payload.flatMap_part {x : Payload} {parts : List Part} (h : parts ∈ partLists)
    (hempty : ∀ part, part ∉ parts → x.part part = []) : parts.flatMap x.part = x.bytes := by
  have hsib := hempty .sib
  have hdisplacement := hempty .displacement
  have himmediate := hempty .immediate
  have himmediate2 := hempty .immediate2
  simp only [Payload.part] at hsib hdisplacement himmediate himmediate2
  simp only [partLists, List.mem_cons, List.not_mem_nil, or_false] at h
  rcases h with rfl | rfl | rfl | rfl | rfl | rfl | rfl <;>
    simp_all [Payload.bytes, Payload.part]

namespace Encoding

variable {mode : Mode} (e : Encoding mode)

lemma form_mem_listedForms : e.form ∈ listedForms :=
  mem_listedForms e.lookup?_opcode e.form?_entry

lemma part_eq_nil {part : Part} (h : part ∉ e.form.parts) : e.payload.part part = [] := by
  apply List.eq_nil_of_length_eq_zero
  rw [e.length_part, Form.width]
  exact Operand.sum_width_eq_zero _ _ _ h

lemma length_part_of_mem {o : Operand} {part : Part}
    (ho : o ∈ e.form.operandsAt (mode.operandSizeAfter e.prefixes))
    (hpart : part ∈ o.source.parts) :
    (e.payload.part part).length = o.width (mode.addressSizeAfter e.prefixes)
      (ModRM.ofByte e.modrmByte) (Sib.ofByte e.payload.sibByte) part := by
  have hnodup := nodup_of_mem_partLists _ (parts_mem_partLists _ e.form_mem_listedForms)
  rw [← e.form.flatMap_parts_operandsAt (mode.operandSizeAfter e.prefixes)] at hnodup
  rw [e.length_part, Form.width]
  exact Operand.sum_width_eq hnodup _ _ _ ho hpart

lemma length_part_le (part : Part) : (e.payload.part part).length ≤ 4 := by
  by_cases hpart : part ∈ e.form.parts
  · obtain ⟨o, ho, hpart'⟩ := List.mem_flatMap.mp
      (e.form.flatMap_parts_operandsAt (mode.operandSizeAfter e.prefixes) ▸ hpart)
    rw [e.length_part_of_mem ho hpart']
    exact o.width_le ..
  · rw [e.part_eq_nil hpart]
    exact Nat.zero_le 4

lemma sib_eq :
    e.payload.sib = if .rm ∈ e.form.sources ∧
        (ModRM.ofByte e.modrmByte).hasSib (mode.addressSizeAfter e.prefixes) then
      [e.payload.sibByte] else [] := by
  by_cases hrm : .rm ∈ e.form.sources
  · rw [← e.form.map_source_operandsAt (mode.operandSizeAfter e.prefixes)] at hrm
    obtain ⟨o, ho, hs⟩ := List.mem_map.mp hrm
    have hpart : Part.sib ∈ o.source.parts := by
      rw [hs]
      decide
    have hlength := e.length_part_of_mem ho hpart
    simp only [Payload.part, Operand.width, hs, true_and] at hlength
    cases hhas : (ModRM.ofByte e.modrmByte).hasSib (mode.addressSizeAfter e.prefixes) with
    | true =>
      rw [hhas] at hlength
      obtain ⟨b, hb⟩ := List.length_eq_one_iff.mp hlength
      rw [if_pos ⟨hrm, rfl⟩, Payload.sibByte, hb]
      rfl
    | false =>
      rw [hhas] at hlength
      rw [if_neg (by simp), List.eq_nil_of_length_eq_zero hlength]
  · have hpart : .sib ∉ e.form.parts := by
      intro hmem
      obtain ⟨s, hs, hpart⟩ := List.mem_flatMap.mp hmem
      obtain rfl : s = .rm := by cases s <;> simp_all [Source.parts]
      exact hrm hs
    rw [if_neg fun h => hrm h.1]
    exact e.part_eq_nil hpart

lemma fieldsAfter_sources :
    e.payload.fieldsAfter (e.form.sources.any (·.isSigned))
      (Decode.startFields mode (mode.summary e.prefixes) e.modrmByte) e.form.sources =
      e.fields := by
  have hvalue : ∀ part (f : List UInt8 → UInt32), f [] = 0 →
      (if (e.form.sources.flatMap (·.parts)).contains part then f (e.payload.part part) else 0) =
        f (e.payload.part part) := by
    intro part f hf
    by_cases hpart : part ∈ e.form.sources.flatMap (·.parts)
    · rw [if_pos (List.contains_iff_mem.mpr hpart)]
    · rw [if_neg (by simpa using hpart), e.part_eq_nil hpart, hf]
  have hsib : (if e.form.sources.contains .rm then e.payload.sibByte else 0) =
      e.payload.sibByte := by
    by_cases hrm : .rm ∈ e.form.sources
    · rw [if_pos (List.contains_iff_mem.mpr hrm)]
    · have hnil : e.payload.sib = [] := by
        rw [e.sib_eq, if_neg fun h => hrm h.1]
      rw [if_neg (by simpa using hrm), Payload.sibByte, hnil]
      rfl
  have hdisplacement := hvalue .displacement (fun l =>
    if e.form.sources.any (·.isSigned) then LittleEndian.signExtended l
    else LittleEndian.zeroExtended l) (by split <;> rfl)
  have himmediate := hvalue .immediate LittleEndian.zeroExtended rfl
  have himmediate2 := hvalue .immediate2 LittleEndian.zeroExtended rfl
  simp only [Payload.part] at hdisplacement himmediate himmediate2
  simp only [Payload.fieldsAfter, hsib, hdisplacement, himmediate, himmediate2]
  rfl

/-- The bytes after the opcode and the ModRM byte are read as the operands, and they give the fields
of the encoding. -/
lemma leads_operands :
    ((e.form.operandsAt (mode.operandSizeAfter e.prefixes)).foldlM
      (Decode.readOperand mode.processor)
      (Decode.startFields mode (mode.summary e.prefixes) e.modrmByte)).Leads
      e.payload.bytes (.done e.fields) := by
  have hparts := parts_mem_partLists _ e.form_mem_listedForms
  have hlead := Decode.leads_foldlM_readOperand mode.processor e.payload
    (e.form.sources.any (·.isSigned))
    (Decode.startFields mode (mode.summary e.prefixes) e.modrmByte) []
    (e.form.operandsAt (mode.operandSizeAfter e.prefixes))
    (fun o ho part hpart => e.length_part_of_mem ho hpart)
    (fun o ho hpart => isSigned_of_mem_listedForms _ e.form_mem_listedForms _
      (List.mem_map_of_mem ho) hpart)
    (fun o ho hs => e.reg_lt (hs ▸ List.mem_map_of_mem ho))
  rw [List.nil_append, Form.map_source_operandsAt, Form.flatMap_parts_operandsAt,
    e.fieldsAfter_sources, Payload.flatMap_part hparts fun part => e.part_eq_nil] at hlead
  exact hlead

end Encoding

end X86Disassembly
