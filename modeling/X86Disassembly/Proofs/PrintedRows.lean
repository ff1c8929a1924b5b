import X86Disassembly.Proofs.AddressReading
import X86Disassembly.Proofs.HexReading

/-!
# Rows read from a listing

A line of a listing has three columns: an address, bytes and text. Bars divide them, and no column
holds a bar. A row can therefore be read from its line, and from the output for a whole image a row
for each entry of the walk over it.
-/

namespace X86Disassembly.CommandLine

/-- Read a row from a line. Its columns have a blank on either side of a bar. -/
def Row.read? (line : List Char) : Option Row :=
  match line.splitOn '|' with
  | [address, bytes, text] => do
    let a ← (readAddress (String.ofList address.dropLast)).toOption
    let shown ← (readBytes (String.ofList bytes)).toOption
    return ⟨a, shown, String.ofList text.tail⟩
  | _ => none

/-- Read the rows from lines that each end with a line feed. -/
def readRows (output : String) : Option (List Row) :=
  (output.toList.splitOn '\n').dropLast.mapM Row.read?

/-- The row shows bytes, and its text can be told from the bars and line feeds around it. -/
structure Row.Printed (r : Row) : Prop where
  bytes_ne_nil : r.bytes ≠ []
  bar_not_mem : '|' ∉ r.text.toList
  newline_not_mem : '\n' ∉ r.text.toList

section Splitting

variable {c : Char} {l l' : List Char}

lemma splitOn_append_cons (h : c ∉ l) : (l ++ c :: l').splitOn c = l :: l'.splitOn c := by
  apply List.splitOnP_append_cons_of_forall_mem
  · intro x hx
    exact beq_false_of_ne fun heq => h (heq ▸ hx)
  · exact beq_self_eq_true c

lemma splitOn_of_not_mem (h : c ∉ l) : l.splitOn c = [l] := by
  apply List.splitOnP_eq_singleton
  intro x hx
  exact beq_false_of_ne fun heq => h (heq ▸ hx)

end Splitting

namespace Row

variable {r : Row}

/-- The line of a row without its line feed. -/
def columns (r : Row) : List Char :=
  ((addressColumn r.address).toList ++ [' ']) ++ '|' ::
    ((' ' :: (byteColumn r.bytes).toList ++ [' ']) ++ '|' :: ' ' :: r.text.toList)

lemma toList_line (r : Row) : r.line.toList = r.columns ++ ['\n'] := by
  have hbar : " | ".toList = [' ', '|', ' '] := by decide
  have hnewline : "\n".toList = ['\n'] := by decide
  simp [line, columns, hbar, hnewline]

lemma not_mem_columns {x : Char} (hx : IsForeign x) (hbar : x ≠ '|') (htext : x ∉ r.text.toList) :
    x ∉ r.columns := by
  have haddress := hx.not_mem_addressColumn r.address
  have hbytes := hx.not_mem_byteColumn r.bytes
  simp [columns, haddress, hbytes, htext, hx.1, hbar]

lemma readBytes_padded {bytes : List UInt8} (hne : bytes ≠ []) :
    readBytes (String.ofList (' ' :: (byteColumn bytes).toList ++ [' '])) = .ok bytes := by
  apply readBytes_of_filter_eq hne
  have hblank : [' '].filter (· ∉ separators) = [] := by decide
  rw [String.toList_ofList, ← List.singleton_append, List.filter_append, List.filter_append,
    hblank, filter_byteColumn, List.nil_append, List.append_nil]

lemma Printed.read?_columns (h : r.Printed) : read? r.columns = some r := by
  have hbar : IsForeign '|' := by decide
  have haddress : '|' ∉ (addressColumn r.address).toList ++ [' '] := by
    simpa using hbar.not_mem_addressColumn r.address
  have hbytes : '|' ∉ ' ' :: (byteColumn r.bytes).toList ++ [' '] := by
    simpa using hbar.not_mem_byteColumn r.bytes
  have htext : '|' ∉ ' ' :: r.text.toList := by
    simpa using h.bar_not_mem
  rw [read?, columns, splitOn_append_cons haddress, splitOn_append_cons hbytes,
    splitOn_of_not_mem htext]
  dsimp only
  rw [List.dropLast_concat, String.ofList_toList, readAddress_addressColumn,
    readBytes_padded h.bytes_ne_nil, List.tail_cons, String.ofList_toList]
  rfl

end Row

lemma readRows_join {rows : List Row} (h : ∀ r ∈ rows, r.Printed) :
    readRows (String.join (rows.map Row.line)) = some rows := by
  rw [readRows]
  induction rows with
  | nil => rfl
  | cons r rows ih =>
    obtain ⟨hfirst, hrest⟩ := List.forall_mem_cons.mp h
    have hline : '\n' ∉ r.columns :=
      Row.not_mem_columns (by decide) (by decide) hfirst.newline_not_mem
    have hne : (String.join (rows.map Row.line)).toList.splitOn '\n' ≠ [] :=
      List.splitOnP_ne_nil _ _
    rw [List.map_cons, String.join_cons, String.toList_append, Row.toList_line, List.append_assoc,
      List.singleton_append, splitOn_append_cons hline, List.dropLast_cons_of_ne_nil hne,
      List.mapM_cons, ih hrest, hfirst.read?_columns]
    rfl

lemma printed_of_walk {mode : Mode} {start : UInt32} {bytes : List UInt8} {offset : Nat}
    {steps : List Block.Step} (h : Block.Walk mode start bytes offset steps) :
    ∀ r ∈ steps.map rowOfStep, r.Printed := by
  rw [List.forall_mem_map]
  intro s hs
  have houtcome := outcome_of_mem_walk h hs
  exact ⟨bytes_rowOfStep_ne_nil houtcome (h.ne_nil_of_mem hs),
    not_mem_text_rowOfStep (by decide) houtcome, not_mem_text_rowOfStep (by decide) houtcome⟩

/-- A listing accounts for each byte of the image. It has a line for each entry of the walk, in
order, from which the address, the bytes and the text of its row can be read. The row stands at the
address of the entry on a ring of 2 ^ 32 addresses, and counting the bytes along never leads out of
the image. An instruction is shown with the bytes it was decoded from, an error with up to 16 bytes
of which it takes one. The run fails if there is an error, and reports how many there are. -/
theorem listImage_accounts (mode : Mode) (image : Image) :
    let code := image.bytes.toList
    let entries := disassemble mode code image.origin
    let o := Block.offset entries
    let report := listImage mode image
    ∃ rows, rowsFrom? code 0 entries = some rows ∧
      report.stdout = String.join (rows.map Row.line) ∧
      readRows report.stdout = some rows ∧
      report.stdout.toList.count '\n' = entries.length ∧
      rows.length = entries.length ∧
      (∀ (k : Nat) (e : Outcome), entries[k]? = some e →
        o (k + 1) = o k + e.span ∧ o (k + 1) ≤ code.length ∧
        ∃ r, rows[k]? = some r ∧ r.address.toNat = (image.origin.toNat + o k) % 2 ^ 32 ∧
          r.Shows mode (code.drop (o k)) e) ∧
      rows.flatMap Row.accounted = code ∧
      (report.exitCode ≠ 0 ↔ ∃ r ∈ rows, r.text = "<decode error>") ∧
      report.stderr = String.join ((Block.steps mode code image.origin).map complaint) ++
        (if rows.countP Row.isError = 0 then ""
          else "Error: " ++ Text.decimal (rows.countP Row.isError) ++
            " byte(s) could not be decoded\n") := by
  intro code entries o report
  have hwalk : Block.Walk mode image.origin code 0 (Block.steps mode code image.origin) :=
    Block.walk_stepsFrom code 0
  generalize hsteps : Block.steps mode code image.origin = steps at hwalk
  have hentries : entries = steps.map (·.outcome) := congrArg (List.map Block.Step.outcome) hsteps
  have hreport : report = finish (steps.map rowOfStep) (String.join (steps.map complaint))
      (if 0 < (steps.map rowOfStep).countP Row.isError then
        some (.undecoded ((steps.map rowOfStep).countP Row.isError)) else none) := by
    rw [countP_isError_of_walk hwalk, ← hsteps]
    rfl
  obtain ⟨hexit, hstderr⟩ := finish_undecoded (steps.map rowOfStep)
    (String.join (steps.map complaint)) ((steps.map rowOfStep).countP Row.isError)
  have hprinted := printed_of_walk hwalk
  have hlines : (String.join ((steps.map rowOfStep).map Row.line)).toList.count '\n' =
      steps.length := by
    rw [count_newline_join fun r hr => (hprinted r hr).newline_not_mem, List.length_map]
  rw [← hreport] at hexit hstderr
  refine ⟨steps.map rowOfStep, ?_, ?_, ?_, ?_, ?_, ?_, ?_, ?_, hstderr⟩
  · rw [hentries]
    exact rowsFrom?_of_walk hwalk rfl (Nat.zero_le _)
  · rw [hreport, finish]
  · rw [hreport, finish]
    exact readRows_join hprinted
  · rw [hreport, hentries, List.length_map]
    exact hlines
  · rw [hentries, List.length_map, List.length_map]
  · intro k e he
    rw [hentries] at he
    have hrow := exists_row_of_getElem? hwalk he
    rw [← hentries] at hrow
    exact hrow
  · exact flatMap_accounted_of_walk hwalk
  · rw [hexit, List.countP_pos_iff]
    simp only [Row.isError, Row.errorText, beq_iff_eq]

/-- Three lines at the end of the addresses: a byte that starts no instruction, an instruction at
address zero, and one that the image cuts off. -/
theorem listImage_accounts_wrapped :
    let image : Image := ⟨0xFFFFFFFF, #[0xF1, 0x90, 0xB8]⟩
    let report := listImage .real image
    report.exitCode ≠ 0 ∧ report.stdout.toList.count '\n' = 3 ∧
      ∃ rows, readRows report.stdout = some rows ∧ rows[1]? = some ⟨0, [0x90], "nop"⟩ ∧
        rows.flatMap Row.accounted = [0xF1, 0x90, 0xB8] := by
  intro image report
  obtain ⟨rows, -, -, hread, hlines, -, hentry, hbytes, hexit, -⟩ := listImage_accounts .real image
  obtain ⟨-, -, r₀, hr₀, -, herror, -⟩ := hentry 0 _ rfl
  obtain ⟨-, -, ⟨address, bytes, text⟩, hr₁, haddress, -, htext, hshown, -⟩ := hentry 1 _ rfl
  refine ⟨hexit.mpr ⟨r₀, List.mem_of_getElem? hr₀, eq_of_beq herror⟩, hlines, rows, hread, ?_,
    hbytes⟩
  have hoffset : Block.offset (disassemble .real image.bytes.toList image.origin) 1 = 1 := rfl
  have hwrap : (image.origin.toNat + 1) % 2 ^ 32 = 0 := by decide
  have hzero : address = 0 := by
    rw [hoffset, hwrap] at haddress
    exact UInt32.toNat_inj.mp haddress
  have hnop : text = "nop" := by
    rw [show text = _ from htext]
    decide +kernel
  rw [hr₁, hzero, hnop, show bytes = [0x90] from hshown]

end X86Disassembly.CommandLine
