import X86Disassembly.Proofs.HexReading

/-!
# The bytes of a line

A line reads its bytes from memory a second time, after they were decoded. All of them are there
again, and they are the instruction: typed in from the line and decoded on their own they give the
instruction of the line.
-/

namespace X86Disassembly.Listing

open CommandLine

variable {mode : Mode} {memory : Memory} {address : UInt32} {line : Line}

/-- A byte as two capital digits. -/
def digitPair (b : UInt8) : String :=
  let digits := "0123456789ABCDEF".toList
  String.ofList (digits[b.toNat / 16]?.toList ++ digits[b.toNat % 16]?.toList)

lemma hexByte_upper (b : UInt8) : Text.hexByte .upper b = digitPair b := by
  have htable : ∀ d < 16, "0123456789ABCDEF".toList[d]? = some (Text.hexDigit .upper d) := by
    decide +kernel
  have hb : b.toNat < 256 := b.toNat_lt
  rw [digitPair, htable _ (by omega), htable _ (by omega), Text.hexByte, Text.fixed,
    hexDigits_toNat]
  rfl

lemma filter_byteText (bytes : List UInt8) :
    (byteText bytes).toList.filter (· ∉ separators) =
      bytes.flatMap fun b => Text.hexDigits .upper 2 b.toNat := by
  have hblank : " ".toList.filter (· ∉ separators) = [] := by decide
  rw [byteText]
  induction bytes with
  | nil => simp
  | cons b bytes ih =>
    rw [List.flatMap_cons, ← ih, ← filter_hexByte]
    cases bytes with
    | nil => simp
    | cons c bytes =>
      rw [List.map_cons, List.map_cons, String.intercalate_cons_cons, String.toList_append,
        String.toList_append, List.filter_append, List.filter_append, hblank, List.append_nil]

/-- The bytes of a line are those of its instruction, all of them and in the order of memory. The
line shows each as two capital digits, with one blank between two bytes; read back and decoded at
the address of the line they give the instruction that the line prints. -/
theorem lineAt_carries_bytes (h : lineAt mode memory address = .ok line) :
    decodeAt mode memory address = .ok line.instruction ∧
    line.address = address ∧ line.size = line.instruction.length ∧
    line.text = line.instruction.text ∧
    ∃ bytes : List UInt8, bytes.length = line.size ∧
      (∀ k < line.size, ∃ b, memory.byteAt (address + UInt32.ofNat k) = some b ∧
        bytes[k]? = some b) ∧
      line.bytesText = " ".intercalate (bytes.map digitPair) ∧
      readBytes line.bytesText = .ok bytes ∧
      decode mode bytes line.address = .ok line.instruction := by
  obtain ⟨i, hi, rfl⟩ := exists_decodeAt_of_lineAt h
  obtain ⟨hpos, hlength, hdecode⟩ := decode_readRun_of_decodeAt hi
  refine ⟨hi, rfl, rfl, rfl, memory.readRun address i.length, hlength, ?_, ?_, ?_, hdecode⟩
  · intro k hk
    have hk : k < (memory.readRun address i.length).length := hlength.symm ▸ hk
    refine ⟨_, ?_, List.getElem?_eq_getElem hk⟩
    exact (memory.isLongestRun_readRun address i.length).readable k _ (List.getElem?_eq_getElem hk)
  · rw [← funext hexByte_upper]
    rfl
  · apply readBytes_of_filter_eq _ (filter_byteText _)
    apply List.ne_nil_of_length_pos
    rw [hlength]
    exact hpos

theorem lineAt_carries_bytes_wrapped :
    let memory := Memory.empty.overlay 0xFFFFFFFE #[0xB8, 0x34, 0x12]
    ∃ line, lineAt .real memory 0xFFFFFFFE = .ok line ∧ line.size = 3 ∧
      ∃ bytes : List UInt8, bytes.length = 3 ∧
        (∃ b, memory.byteAt 0 = some b ∧ bytes[2]? = some b) ∧
        readBytes line.bytesText = .ok bytes ∧
        decode .real bytes 0xFFFFFFFE = .ok line.instruction := by
  intro memory
  have hsome : (lineAt .real memory 0xFFFFFFFE).toOption.map (·.size) = some 3 := by
    decide +kernel
  cases hline : lineAt .real memory 0xFFFFFFFE with
  | error e =>
    rw [hline] at hsome
    cases hsome
  | ok line =>
    rw [hline] at hsome
    have hsize : line.size = 3 := Option.some.inj hsome
    obtain ⟨-, haddress, -, -, bytes, hlength, hbytes, -, hread, hdecode⟩ :=
      lineAt_carries_bytes hline
    rw [hsize] at hlength hbytes
    rw [haddress] at hdecode
    exact ⟨line, rfl, hsize, bytes, hlength, hbytes 2 (by decide), hread, hdecode⟩

end X86Disassembly.Listing
