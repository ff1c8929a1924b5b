import X86Disassembly.Proofs.BackwardListing

/-!
# Bytes read from hexadecimal text

What counts of a text are the bytes of its encoding that are not separators. Taken two by two they
have to be digits, and the first thing that is wrong decides the error. What a listing prints for
some bytes is read as these bytes again.
-/

namespace X86Disassembly.CommandLine

/-- The characters that may stand anywhere between digits. -/
def separators : List Char :=
  [' ', '\t', '\n', '\x0c', '\r', ',']

/-- The bytes of the encoding of a text, without the separators. -/
def digitBytes (text : String) : List UInt8 :=
  text.toUTF8.data.toList.filter (· ∉ separators.map Char.toUInt8)

lemma isSeparator_eq (b : UInt8) :
    isSeparator b = decide (b ∈ separators.map Char.toUInt8) := by
  have htable : ∀ n < 256, isSeparator (UInt8.ofNat n) =
      decide (UInt8.ofNat n ∈ separators.map Char.toUInt8) := by decide +kernel
  have hbyte := htable b.toNat b.toNat_lt
  rwa [UInt8.ofNat_toNat] at hbyte

lemma toNat_of_mem_utf8EncodeChar {c : Char} (hc : ¬c.val.toNat ≤ 127) {b : UInt8}
    (hb : b ∈ String.utf8EncodeChar c) : 127 < b.toNat := by
  have hlow : ∀ v, 128 ≤ v → v < 256 → 127 < (UInt8.ofNat v).toNat := by
    intro v hle hlt
    rw [UInt8.toNat_ofNat', Nat.mod_eq_of_lt hlt]
    omega
  unfold String.utf8EncodeChar at hb
  generalize c.val.toNat = v at hb hc
  simp only [if_neg hc] at hb
  split at hb
  · rcases List.mem_pair.mp hb with rfl | rfl
    · exact hlow _ (by omega) (by omega)
    · exact hlow _ (by omega) (by omega)
  · split at hb
    · simp only [List.mem_cons, List.not_mem_nil, or_false] at hb
      rcases hb with rfl | rfl | rfl
      all_goals exact hlow _ (by omega) (by omega)
    · simp only [List.mem_cons, List.not_mem_nil, or_false] at hb
      rcases hb with rfl | rfl | rfl | rfl
      all_goals exact hlow _ (by omega) (by omega)

lemma filter_utf8EncodeChar (c : Char) :
    (String.utf8EncodeChar c).filter (· ∉ separators.map Char.toUInt8) =
      if c ∈ separators then [] else String.utf8EncodeChar c := by
  by_cases hc : c.val.toNat ≤ 127
  · have htable : ∀ n < 128,
        (String.utf8EncodeChar (Char.ofNat n)).filter (· ∉ separators.map Char.toUInt8) =
          if Char.ofNat n ∈ separators then [] else String.utf8EncodeChar (Char.ofNat n) := by
      decide +kernel
    have hchar := htable c.toNat (Nat.lt_succ_of_le hc)
    rwa [Char.ofNat_toNat] at hchar
  · have hlow : separators.all (·.val.toNat ≤ 127) = true := by decide
    have hbyte : (separators.map Char.toUInt8).all (·.toNat ≤ 127) = true := by decide
    rw [List.all_eq_true] at hlow hbyte
    rw [if_neg fun hmem => hc (of_decide_eq_true (hlow c hmem)), List.filter_eq_self]
    intro b hb
    have hhigh := toNat_of_mem_utf8EncodeChar hc hb
    rw [decide_eq_true_eq]
    exact fun hmem => absurd (of_decide_eq_true (hbyte b hmem)) (Nat.not_le_of_gt hhigh)

lemma toList_toUTF8 (text : String) :
    text.toUTF8.data.toList = text.toList.flatMap String.utf8EncodeChar := by
  conv_lhs => rw [← String.ofList_toList (s := text)]
  rw [String.toUTF8_eq_toByteArray]
  exact List.toList_data_toByteArray

lemma digitBytes_eq (text : String) :
    digitBytes text = (text.toList.filter (· ∉ separators)).flatMap String.utf8EncodeChar := by
  rw [digitBytes, toList_toUTF8]
  induction text.toList with
  | nil => rfl
  | cons c l ih =>
    rw [List.flatMap_cons, List.filter_append, filter_utf8EncodeChar, ih]
    by_cases hc : c ∈ separators
    · simp [hc]
    · simp [hc]

/-- The byte is the digit for a value, in either case. -/
inductive IsDigit : UInt8 → Nat → Prop
  | decimal {d : Nat} (h : d < 10) : IsDigit (UInt8.ofNat (0x30 + d)) d
  | upper {d : Nat} (h : d < 6) : IsDigit (UInt8.ofNat (0x41 + d)) (10 + d)
  | lower {d : Nat} (h : d < 6) : IsDigit (UInt8.ofNat (0x61 + d)) (10 + d)

lemma IsDigit.lt {b : UInt8} {d : Nat} (h : IsDigit b d) : d < 16 := by
  cases h <;> omega

lemma byteDigit?_eq_some_iff {b : UInt8} {d : Nat} : byteDigit? b = some d ↔ IsDigit b d := by
  constructor
  · intro h
    have htable : ∀ n < 256, ∀ d ∈ byteDigit? (UInt8.ofNat n), d < 10 ∧ n = 0x30 + d ∨
        ∃ k < 6, d = 10 + k ∧ (n = 0x41 + k ∨ n = 0x61 + k) := by decide +kernel
    have hrow := htable b.toNat b.toNat_lt d (by rwa [UInt8.ofNat_toNat])
    rw [← UInt8.ofNat_toNat (x := b)]
    rcases hrow with ⟨hd, hn⟩ | ⟨k, hk, rfl, hn | hn⟩
    · rw [hn]
      exact .decimal hd
    · rw [hn]
      exact .upper hk
    · rw [hn]
      exact .lower hk
  · intro h
    cases h with
    | decimal h =>
      have htable : ∀ d < 10, byteDigit? (UInt8.ofNat (0x30 + d)) = some d := by decide
      exact htable _ h
    | upper h =>
      have htable : ∀ d < 6, byteDigit? (UInt8.ofNat (0x41 + d)) = some (10 + d) := by decide
      exact htable _ h
    | lower h =>
      have htable : ∀ d < 6, byteDigit? (UInt8.ofNat (0x61 + d)) = some (10 + d) := by decide
      exact htable _ h

lemma isNone_byteDigit?_iff {b : UInt8} : (byteDigit? b).isNone = true ↔ ∀ d, ¬IsDigit b d := by
  simp only [← byteDigit?_eq_some_iff, Option.isNone_iff_eq_none, Option.eq_none_iff_forall_ne_some]

/-- The bytes are digits two by two, the high digit first, and each pair stands for a byte. -/
inductive Pairs : List UInt8 → List UInt8 → Prop
  | nil : Pairs [] []
  | cons {high low : UInt8} {x y : Nat} {digits bytes : List UInt8} (hx : IsDigit high x)
      (hy : IsDigit low y) (rest : Pairs digits bytes) :
      Pairs (high :: low :: digits) (UInt8.ofNat (16 * x + y) :: bytes)

lemma exists_pairs : ∀ {digits : List UInt8}, digits.length % 2 = 0 →
    (∀ b ∈ digits, ∃ d, IsDigit b d) → ∃ bytes, Pairs digits bytes
  | [], _, _ => ⟨[], .nil⟩
  | [_], heven, _ => by cases heven
  | high :: low :: digits, heven, hdigits => by
    obtain ⟨⟨x, hx⟩, ⟨y, hy⟩, hrest⟩ :
        (∃ x, IsDigit high x) ∧ (∃ y, IsDigit low y) ∧ ∀ b ∈ digits, ∃ d, IsDigit b d := by
      rwa [List.forall_mem_cons, List.forall_mem_cons] at hdigits
    have heven : digits.length % 2 = 0 := by
      rw [List.length_cons, List.length_cons] at heven
      omega
    obtain ⟨bytes, hbytes⟩ := exists_pairs heven hrest
    exact ⟨_, .cons hx hy hbytes⟩

namespace Pairs

variable {digits bytes : List UInt8} (h : Pairs digits bytes)
include h

lemma two_mul_length : 2 * bytes.length = digits.length := by
  induction h with
  | nil => rfl
  | cons hx hy rest ih =>
    rw [List.length_cons, List.length_cons, List.length_cons]
    omega

lemma forall_isDigit : ∀ b ∈ digits, ∃ d, IsDigit b d := by
  induction h with
  | nil => simp
  | cons hx hy rest ih =>
    rw [List.forall_mem_cons, List.forall_mem_cons]
    exact ⟨⟨_, hx⟩, ⟨_, hy⟩, ih⟩

lemma exists_of_getElem? {i : Nat} {b : UInt8} (hb : bytes[i]? = some b) :
    ∃ high low x y, digits[2 * i]? = some high ∧ digits[2 * i + 1]? = some low ∧
      IsDigit high x ∧ IsDigit low y ∧ b.toNat = 16 * x + y := by
  induction h generalizing i with
  | nil => cases hb
  | @cons high low x y digits bytes hx hy rest ih =>
    cases i with
    | zero =>
      obtain rfl := Option.some.inj hb
      refine ⟨high, low, x, y, rfl, rfl, hx, hy, ?_⟩
      have hx := hx.lt
      have hy := hy.lt
      rw [UInt8.toNat_ofNat', Nat.mod_eq_of_lt (by omega)]
    | succ i => exact ih hb

lemma joinDigits_eq : joinDigits (digits.filterMap byteDigit?) = bytes := by
  induction h with
  | nil => rfl
  | cons hx hy rest ih =>
    rw [List.filterMap_cons_some (byteDigit?_eq_some_iff.mpr hx),
      List.filterMap_cons_some (byteDigit?_eq_some_iff.mpr hy), joinDigits, ih]

end Pairs

/-- The difference of two bytes, if it is not negative. -/
def difference? (a b : UInt8) : Option UInt8 :=
  if b ≤ a then some (a - b) else none

/-- The sum of two bytes, if it is a byte. -/
def sum? (a b : UInt8) : Option UInt8 :=
  if a.toNat + b.toNat < UInt8.size then some (a + b) else none

/-- The value of a digit as a byte, if none of the steps to it leaves the range of a byte. Whatever
is neither a decimal digit nor a small letter is taken for a capital letter. -/
def digitByte? (b : UInt8) : Option UInt8 :=
  if 0x30 ≤ b ∧ b ≤ 0x39 then difference? b 0x30
  else if 0x61 ≤ b ∧ b ≤ 0x66 then (difference? b 0x61).bind (sum? · 10)
  else (difference? b 0x41).bind (sum? · 10)

/-- Digits joined two by two by shifting the value of the high one. There is no byte for a digit
without a second one. -/
def joinBytes? : List UInt8 → Option (List UInt8)
  | [] => some []
  | [_] => none
  | high :: low :: digits => do
    let x ← digitByte? high
    let y ← digitByte? low
    let bytes ← joinBytes? digits
    return (x <<< 4 ||| y) :: bytes

lemma digitByte?_of_isDigit {b : UInt8} {d : Nat} (h : IsDigit b d) :
    digitByte? b = some (UInt8.ofNat d) := by
  cases h with
  | decimal h =>
    have htable : ∀ d < 10, digitByte? (UInt8.ofNat (0x30 + d)) = some (UInt8.ofNat d) := by decide
    exact htable _ h
  | upper h =>
    have htable : ∀ d < 6, digitByte? (UInt8.ofNat (0x41 + d)) = some (UInt8.ofNat (10 + d)) := by
      decide
    exact htable _ h
  | lower h =>
    have htable : ∀ d < 6, digitByte? (UInt8.ofNat (0x61 + d)) = some (UInt8.ofNat (10 + d)) := by
      decide
    exact htable _ h

lemma Pairs.joinBytes?_eq {digits bytes : List UInt8} (h : Pairs digits bytes) :
    joinBytes? digits = some bytes := by
  have hjoin : ∀ x < 16, ∀ y < 16,
      UInt8.ofNat x <<< 4 ||| UInt8.ofNat y = UInt8.ofNat (16 * x + y) := by decide
  induction h with
  | nil => rfl
  | @cons high low x y digits bytes hx hy rest ih =>
    rw [joinBytes?, digitByte?_of_isDigit hx, digitByte?_of_isDigit hy, ih,
      ← hjoin x hx.lt y hy.lt]
    rfl

/-- What is read from the bytes that count: the first of three errors that applies, or the bytes
that pairs of digits stand for. -/
inductive Reads : List UInt8 → Except HexError (List UInt8) → Prop
  | noBytes : Reads [] (.error .noBytes)
  | oddDigits {digits : List UInt8} (odd : digits.length % 2 = 1) :
      Reads digits (.error .oddDigits)
  | badDigit {good more : List UInt8} {bad : UInt8} (even : (good ++ bad :: more).length % 2 = 0)
      (digits : ∀ b ∈ good, ∃ d, IsDigit b d) (noDigit : ∀ d, ¬IsDigit bad d) :
      Reads (good ++ bad :: more) (.error (.badDigit bad))
  | bytes {digits bytes : List UInt8} (ne_nil : digits ≠ []) (pairs : Pairs digits bytes) :
      Reads digits (.ok bytes)

namespace Reads

variable {digits : List UInt8}

lemma of_ok {bytes : List UInt8} (h : Reads digits (.ok bytes)) :
    digits ≠ [] ∧ Pairs digits bytes := by
  cases h with
  | bytes ne_nil pairs => exact ⟨ne_nil, pairs⟩

lemma of_noBytes (h : Reads digits (.error .noBytes)) : digits = [] := by
  cases h with
  | noBytes => rfl

lemma of_oddDigits (h : Reads digits (.error .oddDigits)) : digits.length % 2 = 1 := by
  cases h with
  | oddDigits odd => exact odd

lemma of_badDigit {bad : UInt8} (h : Reads digits (.error (.badDigit bad))) :
    digits.length % 2 = 0 ∧ ∃ good more, digits = good ++ bad :: more ∧
      (∀ b ∈ good, ∃ d, IsDigit b d) ∧ ∀ d, ¬IsDigit bad d := by
  cases h with
  | badDigit even digits noDigit => exact ⟨even, _, _, rfl, digits, noDigit⟩

end Reads

section Reading

variable {text : String}

lemma readBytes_eq (text : String) : readBytes text =
    if (digitBytes text).isEmpty then .error .noBytes
    else if (digitBytes text).length % 2 != 0 then .error .oddDigits
    else
      match (digitBytes text).find? fun b => (byteDigit? b).isNone with
      | some bad => .error (.badDigit bad)
      | none => .ok (joinDigits ((digitBytes text).filterMap byteDigit?)) := by
  have hfilter : text.toUTF8.data.toList.filter (!isSeparator ·) = digitBytes text := by
    simp only [isSeparator_eq, digitBytes, decide_not]
  rw [← hfilter]
  rfl

lemma readBytes_of_odd (h : (digitBytes text).length % 2 = 1) :
    readBytes text = .error .oddDigits := by
  have hne : (digitBytes text).isEmpty = false := by
    cases hdigits : digitBytes text with
    | nil =>
      rw [hdigits] at h
      cases h
    | cons b l => rfl
  rw [readBytes_eq, hne, h]
  rfl

lemma find?_byteDigit?_append {good more : List UInt8} {bad : UInt8}
    (hgood : ∀ b ∈ good, ∃ d, IsDigit b d) (hbad : ∀ d, ¬IsDigit bad d) :
    (good ++ bad :: more).find? (fun b => (byteDigit? b).isNone) = some bad := by
  rw [List.find?_eq_some_iff_append]
  refine ⟨isNone_byteDigit?_iff.mpr hbad, good, more, rfl, ?_⟩
  intro b hb
  obtain ⟨d, hd⟩ := hgood b hb
  rw [byteDigit?_eq_some_iff.mpr hd]
  rfl

lemma readBytes_of_bad {good more : List UInt8} {bad : UInt8}
    (hdigits : digitBytes text = good ++ bad :: more)
    (heven : (digitBytes text).length % 2 = 0) (hgood : ∀ b ∈ good, ∃ d, IsDigit b d)
    (hbad : ∀ d, ¬IsDigit bad d) : readBytes text = .error (.badDigit bad) := by
  have hne : (digitBytes text).isEmpty = false := by
    rw [hdigits]
    simp
  rw [readBytes_eq, hne, heven, hdigits, find?_byteDigit?_append hgood hbad]
  rfl

lemma readBytes_of_pairs {bytes : List UInt8} (hne : digitBytes text ≠ [])
    (h : Pairs (digitBytes text) bytes) : readBytes text = .ok bytes := by
  have hlength := h.two_mul_length
  have heven : (digitBytes text).length % 2 = 0 := by omega
  have hgood : (digitBytes text).find? (fun b => (byteDigit? b).isNone) = none := by
    rw [List.find?_eq_none]
    intro b hb hnone
    obtain ⟨d, hd⟩ := h.forall_isDigit b hb
    exact isNone_byteDigit?_iff.mp hnone d hd
  have hnonempty : (digitBytes text).isEmpty = false := by simpa using hne
  rw [readBytes_eq, hnonempty, heven, hgood, h.joinDigits_eq]
  rfl

/-- One of the four cases applies to any text. -/
lemma reads_readBytes (text : String) : Reads (digitBytes text) (readBytes text) := by
  by_cases hne : digitBytes text = []
  · rw [readBytes_eq, hne]
    exact .noBytes
  rcases Nat.mod_two_eq_zero_or_one (digitBytes text).length with heven | hodd
  · by_cases hall : ∀ b ∈ digitBytes text, ∃ d, IsDigit b d
    · obtain ⟨bytes, hbytes⟩ := exists_pairs heven hall
      rw [readBytes_of_pairs hne hbytes]
      exact .bytes hne hbytes
    · cases hfind : (digitBytes text).find? (fun b => (byteDigit? b).isNone) with
      | none =>
        refine absurd (fun b hb => ?_) hall
        have hsome := List.find?_eq_none.mp hfind b hb
        rw [isNone_byteDigit?_iff] at hsome
        exact not_forall_not.mp hsome
      | some bad =>
        obtain ⟨hbad, good, more, hdigits, hgood⟩ := List.find?_eq_some_iff_append.mp hfind
        have hbad := isNone_byteDigit?_iff.mp hbad
        have hgood : ∀ b ∈ good, ∃ d, IsDigit b d := by
          intro b hb
          have hsome := hgood b hb
          rw [Bool.not_eq_true', ← Bool.not_eq_true, isNone_byteDigit?_iff] at hsome
          exact not_forall_not.mp hsome
        rw [readBytes_of_bad hdigits heven hgood hbad]
        rw [hdigits] at heven ⊢
        exact .badDigit heven hgood hbad
  · rw [readBytes_of_odd hodd]
    exact .oddDigits hodd

end Reading

/-! ## Printed bytes -/

lemma hexDigits_toNat (c : Text.LetterCase) (b : UInt8) :
    Text.hexDigits c 2 b.toNat =
      [Text.hexDigit c (b.toNat / 16), Text.hexDigit c (b.toNat % 16)] := by
  have hb : b.toNat < 256 := b.toNat_lt
  have hmod : b.toNat / 16 % 16 = b.toNat / 16 := Nat.mod_eq_of_lt (by omega)
  simp [Text.hexDigits, hmod]

lemma pairs_hexDigits (bytes : List UInt8) :
    Pairs ((bytes.flatMap fun b => Text.hexDigits .upper 2 b.toNat).flatMap
      String.utf8EncodeChar) bytes := by
  have hdigit : ∀ d < 16,
      ∃ c, String.utf8EncodeChar (Text.hexDigit .upper d) = [c] ∧ IsDigit c d := by
    intro d hd
    by_cases hten : d < 10
    · have htable : ∀ d < 10, String.utf8EncodeChar (Text.hexDigit .upper d) =
          [UInt8.ofNat (0x30 + d)] := by decide
      exact ⟨_, htable d hten, .decimal hten⟩
    · have htable : ∀ k < 6, String.utf8EncodeChar (Text.hexDigit .upper (10 + k)) =
          [UInt8.ofNat (0x41 + k)] := by decide
      obtain ⟨k, rfl⟩ := Nat.exists_eq_add_of_le (Nat.le_of_not_lt hten)
      exact ⟨_, htable k (by omega), .upper (by omega)⟩
  induction bytes with
  | nil => exact .nil
  | cons b bytes ih =>
    have hb : b.toNat < 256 := b.toNat_lt
    obtain ⟨high, hhigh, hx⟩ := hdigit (b.toNat / 16) (by omega)
    obtain ⟨low, hlow, hy⟩ := hdigit (b.toNat % 16) (by omega)
    have hpair := Pairs.cons hx hy ih
    rw [Nat.div_add_mod, UInt8.ofNat_toNat] at hpair
    rw [List.flatMap_cons, List.flatMap_append, hexDigits_toNat, List.flatMap_cons,
      List.flatMap_singleton, hhigh, hlow]
    exact hpair

/-- A text that shows the two digits of each byte, with separators anywhere, is read as the
bytes. -/
lemma readBytes_of_filter_eq {text : String} {bytes : List UInt8} (hne : bytes ≠ [])
    (h : text.toList.filter (· ∉ separators) =
      bytes.flatMap fun b => Text.hexDigits .upper 2 b.toNat) :
    readBytes text = .ok bytes := by
  have hpairs := pairs_hexDigits bytes
  rw [← h, ← digitBytes_eq] at hpairs
  apply readBytes_of_pairs _ hpairs
  intro hnil
  rw [hnil] at hpairs
  cases hpairs
  exact hne rfl

lemma filter_hexDigits (c : Text.LetterCase) (count n : Nat) :
    (Text.hexDigits c count n).filter (· ∉ separators) = Text.hexDigits c count n := by
  have htable : ∀ d < 16, Text.hexDigit c d ∉ separators := by
    cases c <;> decide
  rw [List.filter_eq_self]
  intro x hx
  obtain ⟨d, hd, rfl⟩ := Text.mem_hexDigits hx
  simpa using htable d hd

lemma filter_hexByte (c : Text.LetterCase) (b : UInt8) :
    (Text.hexByte c b).toList.filter (· ∉ separators) = Text.hexDigits c 2 b.toNat := by
  rw [Text.hexByte, Text.fixed, String.toList_ofList, filter_hexDigits]

lemma filter_byteColumn (bytes : List UInt8) :
    (byteColumn bytes).toList.filter (· ∉ separators) =
      bytes.flatMap fun b => Text.hexDigits .upper 2 b.toNat := by
  have hpadding : ∀ n, (String.join (List.replicate n "   ")).toList.filter (· ∉ separators) =
      [] := by
    intro n
    induction n with
    | zero => simp
    | succ n ih =>
      rw [List.replicate_succ, String.join_cons, String.toList_append, List.filter_append, ih]
      decide
  rw [byteColumn, String.toList_append, List.filter_append, hpadding, List.append_nil]
  induction bytes with
  | nil => simp
  | cons b bytes ih =>
    have hblank : " ".toList.filter (· ∉ separators) = [] := by decide
    rw [List.map_cons, String.join_cons, String.toList_append, List.filter_append, ih,
      String.toList_append, List.filter_append, hblank, filter_hexByte, List.append_nil,
      List.flatMap_cons]

lemma readBytes_byteColumn {bytes : List UInt8} (h : bytes ≠ []) :
    readBytes (byteColumn bytes) = .ok bytes :=
  readBytes_of_filter_eq h (filter_byteColumn bytes)

lemma bytes_rowOfLine_ne_nil {mode : Mode} {image : Image} {start : UInt32} {line : Listing.Line}
    (h : Listing.lineAt mode image.memory start = .ok line) : (rowOfLine image line).bytes ≠ [] := by
  obtain ⟨i, hi, rfl⟩ := Listing.exists_decodeAt_of_lineAt h
  obtain ⟨hpos, hlength, -⟩ := decode_readRun_of_decodeAt hi
  apply List.ne_nil_of_length_pos
  change 0 < (image.memory.readRun start i.length).length
  rw [hlength]
  exact hpos

/-- Bytes are read from a text exactly if what counts of it are pairs of digits, at least one of
them, and each pair gives its byte without leaving the range of bytes on the way; else the first of
three errors is reported that applies. Separators change nothing, wherever they stand, and the byte
column of an instruction is read as the bytes it was printed from. -/
theorem readBytes_exact :
    (∀ text : String,
      let digits := digitBytes text
      ((∃ bytes, readBytes text = .ok bytes) ↔
        digits ≠ [] ∧ digits.length % 2 = 0 ∧ ∀ b ∈ digits, ∃ d, IsDigit b d) ∧
      (∀ bytes, readBytes text = .ok bytes →
        2 * bytes.length = digits.length ∧ joinBytes? digits = some bytes ∧
        ∀ (i : Nat) (b : UInt8), bytes[i]? = some b →
          ∃ high low x y, digits[2 * i]? = some high ∧ digits[2 * i + 1]? = some low ∧
            IsDigit high x ∧ IsDigit low y ∧ b.toNat = 16 * x + y) ∧
      (readBytes text = .error .noBytes ↔ digits = []) ∧
      (readBytes text = .error .oddDigits ↔ digits.length % 2 = 1) ∧
      ∀ bad, readBytes text = .error (.badDigit bad) ↔ digits.length % 2 = 0 ∧
        ∃ good more, digits = good ++ bad :: more ∧ (∀ b ∈ good, ∃ d, IsDigit b d) ∧
          ∀ d, ¬IsDigit bad d) ∧
    (∀ text text' : String,
      text.toList.filter (· ∉ separators) = text'.toList.filter (· ∉ separators) →
        readBytes text = readBytes text') ∧
    (∀ bytes : List UInt8, bytes ≠ [] → readBytes (byteColumn bytes) = .ok bytes) ∧
    (∀ (mode : Mode) (image : Image),
      ∀ s ∈ Block.steps mode image.bytes.toList image.origin, s.outcome.isOk = true →
        readBytes (byteColumn (rowOfStep s).bytes) = .ok (rowOfStep s).bytes) ∧
    ∀ (mode : Mode) (image : Image) (target : UInt32) (count : Nat) (lines : List Listing.Line),
      Listing.before mode image.memory target count = .ok lines → ∀ line ∈ lines,
        readBytes (byteColumn (rowOfLine image line).bytes) = .ok (rowOfLine image line).bytes := by
  refine ⟨?_, ?_, fun bytes => readBytes_byteColumn, ?_, ?_⟩
  · intro text digits
    have hreads : ∀ {result}, readBytes text = result → Reads digits result := by
      rintro _ rfl
      exact reads_readBytes text
    refine ⟨⟨?_, ?_⟩, ?_, ⟨?_, ?_⟩, ⟨?_, readBytes_of_odd⟩, fun bad => ⟨?_, ?_⟩⟩
    · rintro ⟨bytes, hbytes⟩
      obtain ⟨hne, hpairs⟩ := (hreads hbytes).of_ok
      have hlength := hpairs.two_mul_length
      exact ⟨hne, by omega, hpairs.forall_isDigit⟩
    · rintro ⟨hne, heven, hall⟩
      obtain ⟨bytes, hbytes⟩ := exists_pairs heven hall
      exact ⟨bytes, readBytes_of_pairs hne hbytes⟩
    · intro bytes hbytes
      obtain ⟨-, hpairs⟩ := (hreads hbytes).of_ok
      exact ⟨hpairs.two_mul_length, hpairs.joinBytes?_eq, fun i b => hpairs.exists_of_getElem?⟩
    · exact fun herror => (hreads herror).of_noBytes
    · intro hnil
      rw [readBytes_eq, show digitBytes text = [] from hnil]
      rfl
    · exact fun herror => (hreads herror).of_oddDigits
    · exact fun herror => (hreads herror).of_badDigit
    · rintro ⟨heven, good, more, hdigits, hgood, hbad⟩
      exact readBytes_of_bad hdigits heven hgood hbad
  · intro text text' h
    rw [readBytes_eq, readBytes_eq, digitBytes_eq, digitBytes_eq, h]
  · intro mode image s hs _
    have hwalk : Block.Walk mode image.origin image.bytes.toList 0 _ :=
      Block.walk_stepsFrom image.bytes.toList 0
    apply readBytes_byteColumn
    exact bytes_rowOfStep_ne_nil (outcome_of_mem_walk hwalk hs) (hwalk.ne_nil_of_mem hs)
  · intro mode image target count lines hlines line hline
    obtain ⟨start, hstart⟩ := Listing.exists_lineAt_of_mem_before hlines hline
    exact readBytes_byteColumn (bytes_rowOfLine_ne_nil hstart)

theorem readBytes_exact_xor :
    let image : Image := ⟨0x100, #[0x31, 0xC0, 0xC3]⟩
    let steps := Block.steps .real image.bytes.toList image.origin
    readBytes "31 C,0\n\tC3" = .ok [0x31, 0xC0, 0xC3] ∧
      readBytes "9x, é" = .error (.badDigit 0x78) ∧
      (∃ s ∈ steps, readBytes (byteColumn (rowOfStep s).bytes) = .ok [0x31, 0xC0]) ∧
      ∃ lines, Listing.before .real image.memory 0x102 1 = .ok lines ∧
        ∃ line ∈ lines, readBytes (byteColumn (rowOfLine image line).bytes) = .ok [0x31, 0xC0] := by
  intro image steps
  obtain ⟨htext, hseparators, hcolumn, hsteps, hlines⟩ := readBytes_exact
  refine ⟨?_, ?_, ?_, ?_⟩
  · rw [hseparators "31 C,0\n\tC3" (byteColumn [0x31, 0xC0, 0xC3]) (by decide +kernel)]
    exact hcolumn _ (by decide)
  · obtain ⟨-, -, -, -, hbad⟩ := htext "9x, é"
    have hdigits : digitBytes "9x, é" = [0x39] ++ 0x78 :: [0xC3, 0xA9] := by decide +kernel
    refine (hbad 0x78).mpr ⟨?_, [0x39], [0xC3, 0xA9], hdigits, ?_, ?_⟩
    · rw [hdigits]
      rfl
    · rw [List.forall_mem_singleton]
      exact ⟨9, .decimal (d := 9) (by decide)⟩
    · exact isNone_byteDigit?_iff.mp (by decide)
  · have hok : ∀ s ∈ steps, s.outcome.isOk = true := by decide +kernel
    have hmem : [0x31, 0xC0] ∈ steps.map fun s => (rowOfStep s).bytes := by decide +kernel
    obtain ⟨s, hs, hbytes⟩ := List.mem_map.mp hmem
    exact ⟨s, hs, hbytes ▸ hsteps .real image s hs (hok s hs)⟩
  · have hbefore : Listing.before .real image.memory 0x102 1 = _ :=
      Listing.before_of_le (by decide)
    have hmem : [0x31, 0xC0] ∈ (Listing.linesAt .real image.memory
        (Boundary.chain .real image.memory .longest 0x102 1)).map
          fun line => (rowOfLine image line).bytes := by decide +kernel
    obtain ⟨line, hline, hbytes⟩ := List.mem_map.mp hmem
    exact ⟨_, hbefore, line, hline, hbytes ▸ hlines .real image 0x102 1 _ hbefore line hline⟩

end X86Disassembly.CommandLine
