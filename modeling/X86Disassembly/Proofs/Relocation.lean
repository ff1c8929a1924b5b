import X86Disassembly.Proofs.BackwardListing
import X86Disassembly.Proofs.EffectiveAddress
import X86Disassembly.Proofs.ImageAddresses

/-!
# Code at another address

The address that code is decoded at is recorded and nothing else depends on it, so that the same
bytes give the same instruction or error anywhere. In the text it shows up in one place only: a
branch is printed with the address it leads to. Hence an image that is moved decodes as before.
-/

namespace X86Disassembly

def DecodeError.movedTo (e : DecodeError) (a : UInt32) : DecodeError :=
  { e with address := a }

def Instruction.movedTo (i : Instruction) (a : UInt32) : Instruction :=
  { i with address := a }

/-- An outcome with another address. -/
def Outcome.movedTo : Outcome → UInt32 → Outcome
  | .ok i, a => .ok (i.movedTo a)
  | .error e, a => .error (e.movedTo a)

/-- The line of the same bytes at another address. -/
def Listing.Line.movedTo (line : Line) (a : UInt32) : Line where
  address := a
  addressText := Text.fixed .upper 8 a.toNat
  bytesText := line.bytesText
  text := (line.instruction.movedTo a).text
  size := line.size
  instruction := line.instruction.movedTo a

lemma decode_eq_movedTo (mode : Mode) (b : List UInt8) (a a' : UInt32) :
    decode mode b a' = (decode mode b a).movedTo a' := by
  rw [decode, decode, decodeFrom, decodeFrom]
  cases (Decode.readBody mode).run (⟨{ remaining := b }, []⟩ : Tape ByteCursor) with
  | mk result tape => cases result <;> rfl

namespace Block

lemma map_outcome_stepsFrom_moved (mode : Mode) (start d : UInt32) (bytes : List UInt8)
    (offset skip : Nat) :
    (stepsFrom mode (start + d) bytes offset skip).map (·.outcome) =
      (stepsFrom mode start bytes offset skip).map fun s =>
        s.outcome.movedTo (s.outcome.address + d) := by
  induction bytes generalizing offset skip with
  | nil => rfl
  | cons b bytes ih =>
    cases skip with
    | succ skip => exact ih (offset + 1) skip
    | zero =>
      have haddress : start + d + UInt32.ofNat offset = start + UInt32.ofNat offset + d :=
        add_right_comm start d (UInt32.ofNat offset)
      have hmoved := decode_eq_movedTo mode (b :: bytes) (start + UInt32.ofNat offset)
        (start + UInt32.ofNat offset + d)
      have hspan : ((decode mode (b :: bytes) (start + UInt32.ofNat offset)).movedTo
          (start + UInt32.ofNat offset + d)).span =
            (decode mode (b :: bytes) (start + UInt32.ofNat offset)).span := by
        cases decode mode (b :: bytes) (start + UInt32.ofNat offset) <;> rfl
      simp only [stepsFrom, List.map_cons, ih, haddress, hmoved, hspan, address_decode]

end Block

/-- How a branch target is printed: on a ring of addresses of the operand size. -/
def Text.branchTarget (size : OperandSize) (target : Int) : String :=
  if size = .bits16 then fixed .lower 4 (target % 2 ^ 16).toNat ++ "h"
  else fixed .lower 8 (target % 2 ^ 32).toNat ++ "h"

namespace Instruction

/-- What the text says of the address. Without a branch operand it says nothing. A branch operand is
the only one that is printed, as the address after the instruction and the distance added up; the
distance is held in the last bytes of the instruction. -/
structure PrintsAddress (i : Instruction) (bytes : List UInt8) : Prop where
  fixed : (∀ o ∈ i.operands.toList, o.source ≠ .relative) → ∀ a, (i.movedTo a).text = i.text
  target : ∀ o ∈ i.operands.toList, o.source = .relative →
    ∀ a, (i.movedTo a).text = i.prefixText ++ i.mnemonicText ++ " " ++
      Text.branchTarget i.fields.operandSize (a.toNat + i.length +
        LittleEndian.signedValue (bytes.drop (i.length - o.size.immediateBytes)))

variable (i : Instruction) (a : UInt32)

lemma operandText_movedTo {o : Operand} (h : o.source ≠ .relative) :
    (i.movedTo a).operandText o = i.operandText o := by
  unfold operandText
  cases hs : o.source with
  | relative => exact absurd hs h
  | _ => rfl

lemma text_movedTo (h : ∀ o ∈ i.operands.toList, o.source ≠ .relative) :
    (i.movedTo a).text = i.text := by
  have hoperands : i.printedOperands.map (i.movedTo a).operandText =
      i.printedOperands.map i.operandText :=
    List.map_congr_left fun o ho => i.operandText_movedTo a (h o (i.printedOperands_sublist.mem ho))
  have hprinted : (i.movedTo a).printedOperands = i.printedOperands := rfl
  have hoperandsText : (i.movedTo a).operandsText = i.operandsText := by
    by_cases hnil : i.printedOperands = []
    · rw [operandsText, operandsText, hprinted, hnil]
    · rw [operandsText_of_ne_nil hnil, operandsText_of_ne_nil (hprinted ▸ hnil), hprinted,
        hoperands]
  have hwords : (i.movedTo a).prefixText ++ (i.movedTo a).mnemonicText =
      i.prefixText ++ i.mnemonicText := rfl
  rw [text, hwords, hoperandsText, text]

lemma operandText_relative {o : Operand} (h : o.source = .relative) :
    i.operandText o = Text.branchTarget i.fields.operandSize
      (i.address.toNat + i.length + i.fields.signedDisplacement) := by
  have htarget : i.branchTarget.toNat =
      (i.address.toNat + i.length + i.fields.displacement.toNat) % 2 ^ 32 := by
    rw [branchTarget, nextAddress, UInt32.toNat_add, UInt32.toNat_add, UInt32.toNat_ofNat']
    omega
  have hdistance := BitVec.toInt_eq_toNat_cond i.fields.displacement.toBitVec
  rw [UInt32.toNat_toBitVec] at hdistance
  simp only [operandText, h]
  rw [Text.hexConstant, branchTargetBytes, Text.branchTarget, Fields.signedDisplacement]
  split
  · rw [← Text.fixed_mod .lower (2 * 2)]
    congr
    split at hdistance <;> omega
  · congr
    split at hdistance <;> omega

end Instruction

/-- A condition belongs to the mnemonic. -/
def Source.isShown (s : Source) : Bool :=
  s != .unused && !s.isCondition

/-- A branch has no other operand but perhaps a condition, and nothing but the distance is read
behind its opcode. -/
lemma relative_of_mem_sources : ∀ f ∈ listedForms, .relative ∈ f.sources →
    f.parts = [.displacement] ∧ f.sources.filter (·.isShown) = [.relative] := by
  decide +kernel

namespace Encoding

variable {mode : Mode} (e : Encoding mode) {address : UInt32}

section Branch

variable {o : Operand} (ho : o ∈ (e.instruction address).operands.toList)
  (hs : o.source = .relative)
include ho hs

lemma form_of_relative :
    e.form.parts = [.displacement] ∧ e.form.sources.filter (·.isShown) = [.relative] := by
  have hrelative : .relative ∈ e.form.sources := hs ▸ List.mem_map_of_mem ho
  exact relative_of_mem_sources _ e.form_mem_listedForms hrelative

lemma printedOperands_of_relative : (e.instruction address).printedOperands = [o] := by
  have hshown : ∀ o ∈ (e.instruction address).printedOperands, o.source.isShown = true := by
    intro o ho
    obtain ⟨-, hused, hcondition⟩ :=
      Instruction.isCondition_of_mem_printedOperands (e.printable address) ho
    rw [Source.isShown, hcondition, Bool.not_false, Bool.and_true]
    exact hused
  rw [← List.filter_eq_self.mpr hshown]
  apply e.filter_printedOperands_eq _ ho
  · rw [hs]
    decide
  · rw [hs]
    exact (e.form_of_relative ho hs).2

lemma drop_bytes_of_relative :
    e.bytes.drop (e.bytes.length - o.size.immediateBytes) = e.payload.displacement := by
  have hparts := (e.form_of_relative ho hs).1
  have hlength : e.payload.displacement.length = o.size.immediateBytes := by
    have hpart : Part.displacement ∈ o.source.parts := by
      rw [hs]
      decide
    have hwidth := e.length_part_of_mem ho hpart
    simp only [Payload.part, Operand.width, hs] at hwidth
    exact hwidth
  have hempty : ∀ part, part ≠ .displacement → e.payload.part part = [] := by
    intro part hpart
    apply e.part_eq_nil
    rw [hparts, List.mem_singleton]
    exact hpart
  have hbytes : e.bytes = e.prefixes ++ e.opcode ++ e.modrm ++ e.payload.displacement := by
    have hsib : e.payload.sib = [] := hempty .sib (by decide)
    have himmediate : e.payload.immediate = [] := hempty .immediate (by decide)
    have himmediate2 : e.payload.immediate2 = [] := hempty .immediate2 (by decide)
    rw [bytes, Payload.bytes, hsib, himmediate, himmediate2, List.nil_append, List.append_nil,
      List.append_nil]
  rw [hbytes, ← hlength, List.length_append, Nat.add_sub_cancel, List.drop_left]

end Branch

lemma printsAddress : (e.instruction address).PrintsAddress e.bytes where
  fixed h a := (e.instruction address).text_movedTo a h
  target o ho hs a := by
    have hprinted : (e.instruction a).printedOperands = [o] := e.printedOperands_of_relative ho hs
    have hsigned : e.form.sources.any (·.isSigned) = true :=
      List.any_eq_true.mpr ⟨o.source, List.mem_map_of_mem ho, by rw [hs]; rfl⟩
    have hoperand : (e.instruction a).operandText o = _ :=
      (e.instruction a).operandText_relative hs
    have hdistance : (e.instruction a).fields.signedDisplacement =
        LittleEndian.signedValue e.payload.displacement := e.signedDisplacement_of_isSigned hsigned
    have hlength : (e.instruction address).length = e.bytes.length := rfl
    have hne : (e.instruction a).printedOperands ≠ [] := by simp [hprinted]
    change (e.instruction a).text = _
    rw [hlength, e.drop_bytes_of_relative ho hs, Instruction.text,
      Instruction.operandsText_of_ne_nil hne, hprinted, List.map_singleton,
      String.intercalate_singleton, hoperand, hdistance, ← String.append_assoc]
    rfl

end Encoding

lemma printsAddress_of_decode {mode : Mode} {b : List UInt8} {address : UInt32} {i : Instruction}
    (h : decode mode b address = .ok i) : i.PrintsAddress (b.take i.length) := by
  obtain ⟨e, rest, rfl, rfl⟩ := exists_instruction_of_decode h
  have hlength : (e.instruction address).length = e.bytes.length := rfl
  rw [hlength, List.take_left]
  exact e.printsAddress

section Memory

variable {memory moved : Memory} {d : UInt32}
  (h : ∀ a, moved.byteAt (a + d) = memory.byteAt a)
include h

lemma Memory.readRun_moved (a : UInt32) (n : Nat) :
    moved.readRun (a + d) n = memory.readRun a n := by
  induction n generalizing a with
  | zero => rfl
  | succ n ih => rw [readRun, readRun, h, add_right_comm a d 1, ih]

lemma decodeAt_moved (mode : Mode) (a : UInt32) :
    decodeAt mode moved (a + d) = (decodeAt mode memory a).movedTo (a + d) := by
  rw [decodeAt_eq_decode_readRun, decodeAt_eq_decode_readRun, Memory.readRun_moved h,
    decode_eq_movedTo mode _ a]

lemma Listing.lineAt_moved (mode : Mode) (a : UInt32) :
    lineAt mode moved (a + d) =
      ((lineAt mode memory a).map (·.movedTo (a + d))).mapError (·.movedTo (a + d)) := by
  rw [lineAt, lineAt, decodeAt_moved h]
  cases decodeAt mode memory a with
  | error e => rfl
  | ok i =>
    have hline : lineOf moved (a + d) (i.movedTo (a + d)) =
        (lineOf memory a i).movedTo (a + d) := by
      have hbytes : moved.readRun (a + d) (i.movedTo (a + d)).length = memory.readRun a i.length :=
        Memory.readRun_moved h a i.length
      rw [lineOf, hbytes]
      rfl
    exact congrArg Except.ok hline

end Memory

/-- Decoding does not depend on the place of the code. The same bytes give the same instruction or
error at every address, and the text is the same but for the target of a branch. A block and an
image that lie elsewhere are decoded to the same instructions, errors and lines, at the addresses
they have moved to. -/
theorem decode_position_independent (mode : Mode) :
    (∀ (b : List UInt8) (a a' : UInt32), decode mode b a' = (decode mode b a).movedTo a') ∧
    (∀ (b : List UInt8) (a : UInt32) (i : Instruction), decode mode b a = .ok i →
      i.PrintsAddress (b.take i.length)) ∧
    (∀ (b : List UInt8) (start d : UInt32), disassemble mode b (start + d) =
      (disassemble mode b start).map fun outcome => outcome.movedTo (outcome.address + d)) ∧
    ∀ (image : Image) (d : UInt32), image.origin.toNat + image.bytes.size ≤ 2 ^ 32 →
      (image.movedBy d).origin.toNat + image.bytes.size ≤ 2 ^ 32 →
      ∀ a : UInt32,
        decodeAt mode (image.movedBy d).memory (a + d) =
          (decodeAt mode image.memory a).movedTo (a + d) ∧
        Listing.lineAt mode (image.movedBy d).memory (a + d) =
          ((Listing.lineAt mode image.memory a).map (·.movedTo (a + d))).mapError
            (·.movedTo (a + d)) ∧
        ∀ line, Listing.lineAt mode image.memory a = .ok line →
          line.text = line.instruction.text ∧
            line.instruction.PrintsAddress (image.memory.readRun a line.size) := by
  refine ⟨decode_eq_movedTo mode, fun _ _ _ => printsAddress_of_decode, ?_, ?_⟩
  · intro b start d
    rw [disassemble, Block.steps, Block.map_outcome_stepsFrom_moved, disassemble, Block.steps,
      List.map_map]
    rfl
  · intro image d hfit hmoved a
    have hbyteAt := Image.byteAt_movedBy hfit hmoved
    refine ⟨decodeAt_moved hbyteAt mode a, Listing.lineAt_moved hbyteAt mode a, ?_⟩
    intro line hline
    obtain ⟨i, hi, rfl⟩ := Listing.exists_decodeAt_of_lineAt hline
    obtain ⟨-, hlength, hdecode⟩ := CommandLine.decode_readRun_of_decodeAt hi
    have hprints := printsAddress_of_decode hdecode
    rw [List.take_of_length_le (Nat.le_of_eq hlength)] at hprints
    exact ⟨rfl, hprints⟩

theorem decode_position_independent_jump :
    let image : Image := ⟨0x1000, #[0xEB, 0x10]⟩
    ∃ i : Instruction, decodeAt .flat image.memory 0x1000 = .ok i ∧
      i.text.toList = "jmp 00001012h".toList ∧
      decodeAt .flat (image.movedBy 0xFFFFEFFE).memory 0xFFFFFFFE = .ok (i.movedTo 0xFFFFFFFE) ∧
      (i.movedTo 0xFFFFFFFE).text.toList = "jmp 00000010h".toList := by
  intro image
  obtain ⟨-, hprints, -, himage⟩ := decode_position_independent .flat
  obtain ⟨i, hi⟩ : ∃ i, decode .flat [0xEB, 0x10] 0x1000 = .ok i := ⟨_, rfl⟩
  obtain ⟨hlength, hsize, hsource, hbyte, hwords, htext⟩ :
      i.length = 2 ∧ i.fields.operandSize = .bits32 ∧ i.operands.first.source = .relative ∧
        i.operands.first.size.immediateBytes = 1 ∧
        (i.prefixText ++ i.mnemonicText ++ " ").toList = "jmp ".toList ∧
        i.text.toList = "jmp 00001012h".toList := by
    obtain rfl := Except.ok.inj hi
    decide +kernel
  have hat : decodeAt .flat image.memory 0x1000 = .ok i := by
    rw [← hi]
    decide +kernel
  have hmoved := (himage image 0xFFFFEFFE (by decide) (by decide) 0x1000).1
  have haddress : (0x1000 : UInt32) + 0xFFFFEFFE = 0xFFFFFFFE := by decide
  rw [hat, haddress] at hmoved
  refine ⟨i, hat, htext, hmoved, ?_⟩
  have htarget := (hprints _ _ i hi).target i.operands.first List.mem_cons_self hsource 0xFFFFFFFE
  rw [hlength, hsize, hbyte] at htarget
  rw [htarget, String.toList_append, hwords]
  decide +kernel

end X86Disassembly
