import X86Disassembly.CommandLine.Report
import X86Disassembly.Proofs.BlockWalk
import X86Disassembly.Proofs.CleanText

/-!
# Listing a whole image

The rows of a listing account for each byte of the image once. A row for an instruction stands for
the bytes it shows, and a row for an error for the first of them. No instruction has the text of an
error, so that this can be told from the rows alone.
-/

namespace X86Disassembly.CommandLine

namespace Row

def errorText : String := "<decode error>"

def isError (r : Row) : Bool :=
  r.text == errorText

/-- The bytes that a row stands for. Those behind the first byte of an error are shown again by the
rows that follow. -/
def accounted (r : Row) : List UInt8 :=
  if r.isError then r.bytes.take 1 else r.bytes

/-- What a row says of an entry of a walk, with the bytes that are left at the entry. -/
def Shows (mode : Mode) (left : List UInt8) (r : Row) : Outcome → Prop
  | .ok i => r.isError = false ∧ r.text = i.text ∧ r.bytes = left.take i.length ∧
      r.bytes.length = i.length ∧ decode mode r.bytes r.address = .ok i
  | .error _ => r.isError = true ∧ r.bytes = left.take 16

end Row

/-- The bytes from one offset up to another, if the block has them. -/
def slice? (bytes : List UInt8) (first last : Nat) : Option (List UInt8) :=
  if first ≤ last ∧ last ≤ bytes.length then some ((bytes.drop first).take (last - first)) else none

/-- The row for an entry that stands at an offset of the block. -/
def rowAt? (bytes : List UInt8) (offset : Nat) : Outcome → Option Row
  | .ok i => (slice? bytes offset (offset + i.length)).map (⟨i.address, ·, i.text⟩)
  | .error e =>
    (slice? bytes offset (min bytes.length (offset + errorBytes))).map
      (⟨e.address, ·, Row.errorText⟩)

/-- The rows for entries in a row, with the offset counted along. There are none if a row would show
bytes that the block does not have. -/
def rowsFrom? (bytes : List UInt8) : Nat → List Outcome → Option (List Row)
  | _, [] => some []
  | offset, e :: entries => do
    let row ← rowAt? bytes offset e
    let rows ← rowsFrom? bytes (offset + e.span) entries
    return row :: rows

lemma slice?_of_le {bytes : List UInt8} {first last : Nat} (hle : first ≤ last)
    (hlength : last ≤ bytes.length) :
    slice? bytes first last = some ((bytes.drop first).take (last - first)) :=
  if_pos ⟨hle, hlength⟩

lemma rowAt?_eq_rowOfStep {bytes : List UInt8} {offset : Nat} {e : Outcome}
    (hle : offset + e.span ≤ bytes.length) :
    rowAt? bytes offset e = some (rowOfStep ⟨offset, bytes.drop offset, e⟩) := by
  cases e with
  | ok i =>
    have hslice := slice?_of_le (Nat.le_add_right offset i.length) hle
    rw [Nat.add_sub_cancel_left] at hslice
    rw [rowAt?, hslice]
    rfl
  | error e =>
    have hoffset : offset ≤ min bytes.length (offset + errorBytes) :=
      Nat.le_min.mpr ⟨Nat.le_of_add_right_le hle, Nat.le_add_right _ _⟩
    have htake : (bytes.drop offset).take (min bytes.length (offset + errorBytes) - offset) =
        (bytes.drop offset).take errorBytes := by
      rw [List.take_eq_take_iff, List.length_drop]
      omega
    rw [rowAt?, slice?_of_le hoffset (Nat.min_le_left _ _), htake]
    rfl

lemma rowsFrom?_of_walk {mode : Mode} {start : UInt32} {bytes left : List UInt8} {offset : Nat}
    {steps : List Block.Step} (h : Block.Walk mode start left offset steps)
    (hleft : left = bytes.drop offset) (hoffset : offset ≤ bytes.length) :
    rowsFrom? bytes offset (steps.map (·.outcome)) = some (steps.map rowOfStep) := by
  induction h with
  | stop offset => rfl
  | @step left offset steps outcome decoded nonempty one_le le_length rest ih =>
    subst hleft
    have hspan : offset + outcome.span ≤ bytes.length := by
      rw [List.length_drop] at le_length
      omega
    rw [List.map_cons, rowsFrom?, rowAt?_eq_rowOfStep hspan, ih List.drop_drop hspan]
    rfl

section Decoded

variable {mode : Mode} {bytes : List UInt8} {address : UInt32} {i : Instruction}

lemma all_text_of_decode (h : decode mode bytes address = .ok i) :
    i.text.toList.all Text.isTextLetter = true := by
  obtain ⟨e, rest, -, rfl⟩ := exists_instruction_of_decode h
  exact (e.printable address).trimmed_text.all

lemma text_ne_errorText (h : decode mode bytes address = .ok i) : i.text ≠ Row.errorText := by
  have hletters := all_text_of_decode h
  intro htext
  rw [htext] at hletters
  exact absurd hletters (by decide)

lemma decode_take_length (h : decode mode bytes address = .ok i) :
    (bytes.take i.length).length = i.length ∧
      decode mode (bytes.take i.length) address = .ok i := by
  obtain ⟨read, rest, body, rfl, hread, hmax, rfl⟩ := decode_eq_ok_iff.mp h
  rw [List.take_left]
  exact ⟨rfl, decode_eq_ok_iff.mpr ⟨read, [], body, (List.append_nil read).symm, hread, hmax, rfl⟩⟩

end Decoded

lemma address_rowOfStep (s : Block.Step) : (rowOfStep s).address = s.outcome.address := by
  unfold rowOfStep
  cases s.outcome <;> rfl

lemma shows_rowOfStep {mode : Mode} {address : UInt32} {s : Block.Step}
    (h : s.outcome = decode mode s.rest address) :
    (rowOfStep s).Shows mode s.rest s.outcome := by
  obtain ⟨offset, left, outcome⟩ := s
  cases outcome with
  | error e => exact ⟨beq_self_eq_true _, rfl⟩
  | ok i =>
    have hdecode : decode mode left address = .ok i := h.symm
    have haddress : i.address = address := by
      have haddress := address_decode mode left address
      rwa [hdecode] at haddress
    subst haddress
    obtain ⟨hlength, htake⟩ := decode_take_length hdecode
    exact ⟨beq_false_of_ne (text_ne_errorText hdecode), rfl, rfl, hlength, htake⟩

lemma bytes_rowOfStep_ne_nil {mode : Mode} {address : UInt32} {s : Block.Step}
    (h : s.outcome = decode mode s.rest address) (hne : s.rest ≠ []) : (rowOfStep s).bytes ≠ [] := by
  have hspan := one_le_span_decode mode s.rest address
  have hshows := shows_rowOfStep h
  rw [← h] at hspan
  cases ho : s.outcome with
  | ok i =>
    rw [ho] at hspan hshows
    obtain ⟨-, -, -, hlength, -⟩ := hshows
    apply List.ne_nil_of_length_pos
    rw [hlength]
    exact hspan
  | error e =>
    rw [ho] at hshows
    rw [hshows.2]
    exact fun hnil => (List.take_eq_nil_iff.mp hnil).elim (by decide) hne

lemma Row.Shows.accounted_eq {mode : Mode} {left : List UInt8} {r : Row} {e : Outcome}
    (h : r.Shows mode left e) : r.accounted = left.take e.span := by
  cases e with
  | ok i =>
    obtain ⟨herror, -, hbytes, -⟩ := h
    rw [accounted, herror, hbytes]
    rfl
  | error e =>
    obtain ⟨herror, hbytes⟩ := h
    rw [accounted, herror, if_pos rfl, hbytes, List.take_take]
    rfl

lemma eq_hexDigit_of_mem_fixed {x : Char} {c : Text.LetterCase} {count n : Nat}
    (h : x ∈ (Text.fixed c count n).toList) : ∃ d < 16, x = Text.hexDigit c d := by
  rw [Text.fixed, String.toList_ofList] at h
  exact Text.mem_hexDigits h

/-- A character that does not belong to the columns before the text of a row. -/
def IsForeign (x : Char) : Prop :=
  x ≠ ' ' ∧ x ≠ 'x' ∧ ∀ d < 16, x ≠ Text.hexDigit .upper d

instance (x : Char) : Decidable (IsForeign x) := by
  unfold IsForeign
  infer_instance

lemma IsForeign.not_mem_addressColumn {x : Char} (hx : IsForeign x) (a : UInt32) :
    x ∉ (addressColumn a).toList := by
  obtain ⟨-, hmark, hdigit⟩ := hx
  rw [addressColumn, String.toList_append, List.mem_append]
  rintro (h | h)
  · rcases List.mem_cons.mp h with rfl | h
    · exact hdigit 0 (by decide) rfl
    · exact hmark (List.mem_singleton.mp h)
  · obtain ⟨d, hd, rfl⟩ := eq_hexDigit_of_mem_fixed h
    exact hdigit d hd rfl

lemma IsForeign.not_mem_byteColumn {x : Char} (hx : IsForeign x) (bytes : List UInt8) :
    x ∉ (byteColumn bytes).toList := by
  obtain ⟨hblank, -, hdigit⟩ := hx
  rw [byteColumn, String.toList_append, String.toList_join, String.toList_join, List.mem_append]
  rintro (h | h)
  · obtain ⟨s, hs, h⟩ := List.mem_flatMap.mp h
    obtain ⟨b, -, rfl⟩ := List.mem_map.mp hs
    rw [String.toList_append, List.mem_append] at h
    rcases h with h | h
    · obtain ⟨d, hd, rfl⟩ := eq_hexDigit_of_mem_fixed h
      exact hdigit d hd rfl
    · exact hblank (List.mem_singleton.mp h)
  · obtain ⟨s, hs, h⟩ := List.mem_flatMap.mp h
    obtain rfl := List.eq_of_mem_replicate hs
    exact hblank (List.eq_of_mem_replicate (n := 3) h)

lemma count_newline_line {r : Row} (h : '\n' ∉ r.text.toList) : r.line.toList.count '\n' = 1 := by
  have hnewline : IsForeign '\n' := by decide
  simp only [Row.line, String.toList_append, List.count_append,
    List.count_eq_zero.mpr (hnewline.not_mem_addressColumn r.address),
    List.count_eq_zero.mpr h, List.count_eq_zero.mpr (hnewline.not_mem_byteColumn r.bytes)]
  decide

lemma count_newline_join {rows : List Row} (h : ∀ r ∈ rows, '\n' ∉ r.text.toList) :
    (String.join (rows.map Row.line)).toList.count '\n' = rows.length := by
  induction rows with
  | nil => rfl
  | cons r rows ih =>
    obtain ⟨hfirst, hrest⟩ := List.forall_mem_cons.mp h
    rw [List.map_cons, String.join_cons, String.toList_append, List.count_append, ih hrest,
      count_newline_line hfirst, List.length_cons, Nat.add_comm]

/-- The characters of a row's text are those of an instruction or of an error. -/
lemma not_mem_text_rowOfStep {mode : Mode} {address : UInt32} {s : Block.Step} {x : Char}
    (hx : Text.isTextLetter x = false ∧ x ∉ Row.errorText.toList)
    (h : s.outcome = decode mode s.rest address) : x ∉ (rowOfStep s).text.toList := by
  obtain ⟨offset, left, outcome⟩ := s
  cases outcome with
  | ok i => exact Text.not_mem_of_all hx.1 (all_text_of_decode h.symm)
  | error e => exact hx.2

section Walk

variable {mode : Mode} {start : UInt32} {bytes : List UInt8} {offset : Nat}
  {steps : List Block.Step}

lemma outcome_of_mem_walk (h : Block.Walk mode start bytes offset steps) {s : Block.Step}
    (hs : s ∈ steps) : s.outcome = decode mode s.rest (start + UInt32.ofNat s.offset) := by
  obtain ⟨k, hk⟩ := List.getElem?_of_mem hs
  obtain ⟨-, hstep⟩ := h.eq_of_getElem? hk
  rw [hstep]

/-- What the rows stand for, in a row, is what was walked over. -/
theorem flatMap_accounted_of_walk (h : Block.Walk mode start bytes offset steps) :
    (steps.map rowOfStep).flatMap Row.accounted = bytes := by
  induction h with
  | stop offset => rfl
  | @step bytes offset steps outcome decoded nonempty one_le le_length rest ih =>
    have hfirst : (rowOfStep ⟨offset, bytes, outcome⟩).accounted = bytes.take outcome.span :=
      (shows_rowOfStep decoded).accounted_eq
    rw [List.map_cons, List.flatMap_cons, hfirst, ih, List.take_append_drop]

lemma countP_isError_of_walk (h : Block.Walk mode start bytes offset steps) :
    (steps.map rowOfStep).countP Row.isError = failureCount steps := by
  rw [failureCount, List.countP_map]
  apply List.countP_congr
  intro s hs
  have hshows := shows_rowOfStep (outcome_of_mem_walk h hs)
  rw [Function.comp_apply]
  cases ho : s.outcome with
  | ok i =>
    rw [ho] at hshows
    rw [hshows.1]
  | error e =>
    rw [ho] at hshows
    rw [hshows.1]

lemma exists_row_of_getElem? (h : Block.Walk mode start bytes 0 steps) {k : Nat} {e : Outcome}
    (he : (steps.map (·.outcome))[k]? = some e) :
    let o := Block.offset (steps.map (·.outcome))
    o (k + 1) = o k + e.span ∧ o (k + 1) ≤ bytes.length ∧
      ∃ r, (steps.map rowOfStep)[k]? = some r ∧
        r.address.toNat = (start.toNat + o k) % 2 ^ 32 ∧ r.Shows mode (bytes.drop (o k)) e := by
  intro o
  obtain ⟨s, hs, rfl⟩ := Option.map_eq_some_iff.mp (List.getElem?_map.symm.trans he)
  have hle : o (k + 1) ≤ bytes.length := by
    rw [← h.offset_length]
    exact Block.offset_mono _ (List.getElem?_eq_some_iff.mp hs).1
  obtain ⟨-, hstep⟩ := h.eq_of_getElem? hs
  rw [Nat.zero_add] at hstep
  have hrest : s.rest = bytes.drop (o k) := congrArg Block.Step.rest hstep
  have hdecode : s.outcome = decode mode s.rest (start + UInt32.ofNat (o k)) := by
    rw [hrest]
    exact congrArg Block.Step.outcome hstep
  have hrow : (steps.map rowOfStep)[k]? = some (rowOfStep s) := by
    rw [List.getElem?_map, hs]
    rfl
  refine ⟨Block.offset_succ he, hle, rowOfStep s, hrow, ?_, ?_⟩
  · rw [address_rowOfStep, hdecode, address_decode, UInt32.toNat_add, UInt32.toNat_ofNat',
      Nat.add_mod_mod]
  · rw [← hrest]
    exact shows_rowOfStep hdecode

end Walk

lemma text_undecoded (count : Nat) :
    (Failure.undecoded count).text =
      "Error: " ++ Text.decimal count ++ " byte(s) could not be decoded\n" := by
  have hend : " byte(s) could not be decoded" ++ "\n" = " byte(s) could not be decoded\n" := by
    decide +kernel
  rw [← hend]
  change "Error: " ++ (Text.decimal count ++ " byte(s) could not be decoded") ++ "\n" ++ "" = _
  rw [String.append_empty, String.append_assoc, String.append_assoc, String.append_assoc]

lemma finish_undecoded (rows : List Row) (stderr : String) (count : Nat) :
    let report := finish rows stderr (if 0 < count then some (.undecoded count) else none)
    (report.exitCode ≠ 0 ↔ 0 < count) ∧
      report.stderr = stderr ++ (if count = 0 then ""
        else "Error: " ++ Text.decimal count ++ " byte(s) could not be decoded\n") := by
  cases count with
  | zero => simp [finish]
  | succ count =>
    rw [if_pos (Nat.succ_pos count), if_neg (Nat.succ_ne_zero count), ← text_undecoded]
    simp [finish]

end X86Disassembly.CommandLine
