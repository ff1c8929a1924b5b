import Mathlib.Data.List.Forall2
import Mathlib.Data.Nat.Digits.Defs
import X86Disassembly.CommandLine.Report
import X86Disassembly.Proofs.NumberText

/-!
# Addresses read from text

An address is written in hexadecimal digits after `0x` or `0X`, or in decimal digits, with or
without a plus sign before them. `IsAddress` is this grammar together with the number that a text
stands for. Reading accepts the texts of the grammar whose number is an address, and no others:
a number that is too large is found out and not taken modulo the number of addresses.
-/

namespace X86Disassembly.CommandLine

/-- The character is the digit for a value of a radix, in either case. -/
def IsDigitOf (radix : Nat) (c : Char) (d : Nat) : Prop :=
  d < radix ∧ ∃ letterCase, c = Text.hexDigit letterCase d

/-- The text is an optional plus sign and digits, at least one of them and the highest first, which
stand for the number. -/
inductive IsNumber (radix : Nat) : List Char → Nat → Prop
  | plain {text : List Char} {digits : List Nat} (h : List.Forall₂ (IsDigitOf radix) text digits)
      (ne_nil : text ≠ []) : IsNumber radix text (Nat.ofDigits radix digits.reverse)
  | plus {text : List Char} {digits : List Nat} (h : List.Forall₂ (IsDigitOf radix) text digits)
      (ne_nil : text ≠ []) : IsNumber radix ('+' :: text) (Nat.ofDigits radix digits.reverse)

/-- The text is an address in hexadecimal or decimal digits, which stand for the number. -/
inductive IsAddress : List Char → Nat → Prop
  | hexadecimal {mark : Char} {text : List Char} {value : Nat} (hmark : mark = 'x' ∨ mark = 'X')
      (h : IsNumber 16 text value) : IsAddress ('0' :: mark :: text) value
  | decimal {text : List Char} {value : Nat} (h : IsNumber 10 text value) : IsAddress text value

lemma lt_of_hexValue?_eq_some {c : Char} {d : Nat} (h : hexValue? c = some d) : c.toNat < 128 := by
  have hle : ∀ {x : Char}, c ≤ x → c.toNat ≤ x.toNat := fun hx => hx
  unfold hexValue? at h
  split at h
  · next hc => exact Nat.lt_of_le_of_lt (hle hc.2) (by decide)
  · split at h
    · next hc => exact Nat.lt_of_le_of_lt (hle hc.2) (by decide)
    · split at h
      · next hc => exact Nat.lt_of_le_of_lt (hle hc.2) (by decide)
      · cases h

lemma digitValue?_eq_some_iff {radix : Nat} (hradix : radix ≤ 16) {c : Char} {d : Nat} :
    digitValue? radix c = some d ↔ IsDigitOf radix c d := by
  rw [digitValue?, Option.filter_eq_some_iff, decide_eq_true_eq, IsDigitOf, and_comm]
  refine and_congr_right fun hd => ⟨?_, ?_⟩
  · intro h
    have htable : ∀ n < 128, ∀ d ∈ hexValue? (Char.ofNat n),
        Char.ofNat n = Text.hexDigit .lower d ∨ Char.ofNat n = Text.hexDigit .upper d := by
      decide +kernel
    have hrow := htable c.toNat (lt_of_hexValue?_eq_some h) d (by rwa [Char.ofNat_toNat])
    rw [Char.ofNat_toNat] at hrow
    rcases hrow with hc | hc
    · exact ⟨.lower, hc⟩
    · exact ⟨.upper, hc⟩
  · rintro ⟨letterCase, rfl⟩
    have hread := Text.digitValue?_hexDigit letterCase d (Nat.lt_of_lt_of_le hd hradix)
    exact (Option.filter_eq_some_iff.mp hread).1

section Digits

variable {radix : Nat} {text : List Char} {digits : List Nat}

lemma readDigits_of_forall₂ (hradix : radix ≤ 16) (h : List.Forall₂ (IsDigitOf radix) text digits)
    {bound value : Nat} (hvalue : value < bound) :
    let n := value * radix ^ digits.length + Nat.ofDigits radix digits.reverse
    readDigits radix bound text value = if n < bound then .ok n else .error .tooLarge := by
  induction h generalizing value with
  | nil => simp [readDigits, hvalue]
  | @cons c d text digits hd h ih =>
    have hpos : 1 ≤ radix ^ digits.length := Nat.one_le_pow _ _ (Nat.zero_lt_of_lt hd.1)
    have hstep : value * radix ^ (d :: digits).length + Nat.ofDigits radix (d :: digits).reverse =
        (value * radix + d) * radix ^ digits.length + Nat.ofDigits radix digits.reverse := by
      rw [List.reverse_cons, Nat.ofDigits_append, Nat.ofDigits_singleton, List.length_reverse,
        List.length_cons]
      ring
    rw [hstep, readDigits, (digitValue?_eq_some_iff hradix).mpr hd]
    dsimp only
    split
    · next hlt => exact ih hlt
    · next hle =>
      have hgrow := Nat.mul_le_mul_left (value * radix + d) hpos
      rw [if_neg (by omega)]

lemma readDigits_zero_of_forall₂ (hradix : radix ≤ 16)
    (h : List.Forall₂ (IsDigitOf radix) text digits) {bound : Nat} (hbound : 0 < bound) :
    let n := Nat.ofDigits radix digits.reverse
    readDigits radix bound text 0 = if n < bound then .ok n else .error .tooLarge := by
  have hread := readDigits_of_forall₂ hradix h hbound
  rwa [Nat.zero_mul, Nat.zero_add] at hread

lemma exists_forall₂_of_readDigits (hradix : radix ≤ 16) {bound value n : Nat}
    (h : readDigits radix bound text value = .ok n) :
    ∃ digits, List.Forall₂ (IsDigitOf radix) text digits := by
  induction text generalizing value with
  | nil => exact ⟨[], .nil⟩
  | cons c text ih =>
    rw [readDigits] at h
    cases hc : digitValue? radix c with
    | none =>
      rw [hc] at h
      cases h
    | some d =>
      rw [hc] at h
      dsimp only at h
      split at h
      · obtain ⟨digits, hdigits⟩ := ih h
        exact ⟨d :: digits, .cons ((digitValue?_eq_some_iff hradix).mp hc) hdigits⟩
      · cases h

end Digits

lemma not_isDigitOf_plus {radix d : Nat} (hradix : radix ≤ 16) : ¬IsDigitOf radix '+' d := by
  rintro ⟨hd, letterCase, hc⟩
  exact Text.hexDigit_ne_plus letterCase d (by omega) hc.symm

lemma readNumber_eq_readDigits {radix bound : Nat} {text : List Char} (ne_nil : text ≠ [])
    (hplus : text.head? ≠ some '+') :
    readNumber radix bound text = readDigits radix bound text 0 := by
  unfold readNumber
  split
  · exact absurd rfl ne_nil
  · exact absurd rfl hplus
  · exact absurd rfl hplus
  · rfl

lemma readNumber_plus {radix bound : Nat} {text : List Char} (ne_nil : text ≠ []) :
    readNumber radix bound ('+' :: text) = readDigits radix bound text 0 := by
  cases text with
  | nil => exact absurd rfl ne_nil
  | cons c text => rfl

section Number

variable {radix bound : Nat} {text : List Char} {value : Nat}

lemma IsNumber.readNumber_eq (h : IsNumber radix text value) (hradix : radix ≤ 16)
    (hbound : 0 < bound) :
    readNumber radix bound text = if value < bound then .ok value else .error .tooLarge := by
  cases h with
  | plain h ne_nil =>
    have hplus : text.head? ≠ some '+' := by
      cases h with
      | nil => exact absurd rfl ne_nil
      | cons hd _ =>
        intro hc
        obtain rfl := Option.some.inj hc
        exact not_isDigitOf_plus hradix hd
    rw [readNumber_eq_readDigits ne_nil hplus]
    exact readDigits_zero_of_forall₂ hradix h hbound
  | plus h ne_nil =>
    rw [readNumber_plus ne_nil]
    exact readDigits_zero_of_forall₂ hradix h hbound

lemma exists_isNumber_of_readNumber (hradix : radix ≤ 16)
    (h : readNumber radix bound text = .ok value) : ∃ n, IsNumber radix text n := by
  unfold readNumber at h
  split at h
  · cases h
  · cases h
  · next digits hne =>
    obtain ⟨values, hvalues⟩ := exists_forall₂_of_readDigits hradix h
    exact ⟨_, .plus hvalues fun hnil => hne (by rw [hnil])⟩
  · next hne _ _ =>
    obtain ⟨values, hvalues⟩ := exists_forall₂_of_readDigits hradix h
    exact ⟨_, .plain hvalues hne⟩

end Number

lemma not_isNumber_of_mark {mark : Char} (hmark : mark = 'x' ∨ mark = 'X') {text : List Char}
    {value : Nat} : ¬IsNumber 10 ('0' :: mark :: text) value := by
  have htable : ∀ d < 10, ∀ letterCase, Text.hexDigit letterCase d ≠ 'x' ∧
      Text.hexDigit letterCase d ≠ 'X' := by
    intro d hd letterCase
    revert d
    cases letterCase <;> decide
  intro h
  cases h with
  | plain h _ =>
    cases h with
    | cons _ h =>
      cases h with
      | cons hd _ =>
        obtain ⟨hlt, letterCase, rfl⟩ := hd
        obtain ⟨hlower, hupper⟩ := htable _ hlt letterCase
        exact hmark.elim hlower hupper

/-- An address is read, or refused as too large. -/
lemma IsAddress.readAddress_eq {text : String} {value : Nat} (h : IsAddress text.toList value) :
    readAddress text =
      if value < UInt32.size then .ok (UInt32.ofNat value) else .error .tooLarge := by
  have hmap : ∀ {result : Except NumberError Nat},
      result = (if value < UInt32.size then .ok value else .error .tooLarge) →
      result.map UInt32.ofNat =
        if value < UInt32.size then .ok (UInt32.ofNat value) else .error .tooLarge := by
    rintro _ rfl
    split <;> rfl
  unfold readAddress
  generalize text.toList = l at h
  cases h with
  | hexadecimal hmark h =>
    have hread := hmap (h.readNumber_eq (by decide) (by decide))
    rcases hmark with rfl | rfl
    · exact hread
    · exact hread
  | decimal h =>
    split
    · exact absurd h (not_isNumber_of_mark (.inl rfl))
    · exact absurd h (not_isNumber_of_mark (.inr rfl))
    · exact hmap (h.readNumber_eq (by decide) (by decide))

lemma exists_isAddress_of_readAddress {text : String} {a : UInt32} (h : readAddress text = .ok a) :
    ∃ value, IsAddress text.toList value := by
  have hnumber : ∀ {radix : Nat} {digits : List Char}, radix ≤ 16 →
      (readNumber radix UInt32.size digits).map UInt32.ofNat = .ok a →
      ∃ value, IsNumber radix digits value := by
    intro radix digits hradix hmap
    cases hread : readNumber radix UInt32.size digits with
    | error e =>
      rw [hread] at hmap
      cases hmap
    | ok n => exact exists_isNumber_of_readNumber hradix hread
  unfold readAddress at h
  generalize text.toList = l at h ⊢
  split at h
  · obtain ⟨value, hvalue⟩ := hnumber (by decide) h
    exact ⟨value, .hexadecimal (.inl rfl) hvalue⟩
  · obtain ⟨value, hvalue⟩ := hnumber (by decide) h
    exact ⟨value, .hexadecimal (.inr rfl) hvalue⟩
  · obtain ⟨value, hvalue⟩ := hnumber (by decide) h
    exact ⟨value, .decimal hvalue⟩

lemma readAddress_eq_ok_iff {text : String} {a : UInt32} :
    readAddress text = .ok a ↔ IsAddress text.toList a.toNat := by
  constructor
  · intro h
    obtain ⟨value, hvalue⟩ := exists_isAddress_of_readAddress h
    have hread := hvalue.readAddress_eq
    rw [h] at hread
    split at hread
    · next hlt =>
      obtain rfl := Except.ok.inj hread
      rwa [UInt32.toNat_ofNat_of_lt' hlt]
    · cases hread
  · intro h
    rw [h.readAddress_eq, if_pos a.toNat_lt, UInt32.ofNat_toNat]

lemma isNumber_replicate_append {radix : Nat} {text : List Char} {digits : List Nat}
    (h : List.Forall₂ (IsDigitOf radix) text digits) (ne_nil : text ≠ []) (zeros : Nat) :
    IsNumber radix (List.replicate zeros '0' ++ text) (Nat.ofDigits radix digits.reverse) ∧
      IsNumber radix ('+' :: (List.replicate zeros '0' ++ text))
        (Nat.ofDigits radix digits.reverse) := by
  have hradix : 0 < radix := by
    cases h with
    | nil => exact absurd rfl ne_nil
    | cons hd _ => exact Nat.zero_lt_of_lt hd.1
  have hzeros : List.Forall₂ (IsDigitOf radix) (List.replicate zeros '0')
      (List.replicate zeros 0) := by
    induction zeros with
    | zero => exact .nil
    | succ zeros ih => exact .cons ⟨hradix, .lower, rfl⟩ ih
  have hall := List.rel_append hzeros h
  have hne : List.replicate zeros '0' ++ text ≠ [] := List.append_ne_nil_of_right_ne_nil _ ne_nil
  have hvalue : Nat.ofDigits radix (List.replicate zeros 0 ++ digits).reverse =
      Nat.ofDigits radix digits.reverse := by
    rw [List.reverse_append, List.reverse_replicate, Nat.ofDigits_append_replicate_zero]
  rw [← hvalue]
  exact ⟨.plain hall hne, .plus hall hne⟩

lemma toList_append_ofList (lead : String) (text : List Char) :
    (lead ++ String.ofList text).toList = lead.toList ++ text := by
  rw [String.toList_append, String.toList_ofList]

lemma readAddress_append_congr {lead : String} {text text' : List Char} {value : Nat}
    (h : IsAddress (lead.toList ++ text) value) (h' : IsAddress (lead.toList ++ text') value) :
    readAddress (lead ++ String.ofList text) = readAddress (lead ++ String.ofList text') := by
  rw [← toList_append_ofList] at h h'
  rw [h.readAddress_eq, h'.readAddress_eq]

lemma isDigitOf_digitChar {d : Nat} (h : d < 10) : IsDigitOf 10 d.digitChar d :=
  ⟨h, .lower, rfl⟩

lemma exists_forall₂_toDigits (n : Nat) :
    ∃ digits, List.Forall₂ (IsDigitOf 10) (Nat.toDigits 10 n) digits ∧
      Nat.ofDigits 10 digits.reverse = n := by
  induction n using Nat.strong_induction_on with
  | _ n ih =>
    rw [Nat.toDigits_eq_if (by decide)]
    split
    · next hlt =>
      exact ⟨[n], .cons (isDigitOf_digitChar hlt) .nil, by simp⟩
    · next hle =>
      obtain ⟨digits, hdigits, hvalue⟩ := ih (n / 10) (by omega)
      have hlast := isDigitOf_digitChar (Nat.mod_lt n (show 0 < 10 by decide))
      refine ⟨digits ++ [n % 10], List.rel_append hdigits (.cons hlast .nil), ?_⟩
      rw [List.reverse_append, List.reverse_singleton, List.singleton_append, Nat.ofDigits_cons,
        hvalue]
      exact Nat.mod_add_div n 10

lemma toDigits_ne_nil (n : Nat) : Nat.toDigits 10 n ≠ [] := by
  rw [Nat.toDigits_eq_if (by decide)]
  split
  · simp
  · simp

lemma isAddress_decimal (n : Nat) : IsAddress (Text.decimal n).toList n := by
  obtain ⟨digits, hdigits, hvalue⟩ := exists_forall₂_toDigits n
  have hnumber := IsNumber.plain hdigits (toDigits_ne_nil n)
  rw [hvalue] at hnumber
  rw [Text.decimal, String.toList_ofList]
  exact .decimal hnumber

lemma readAddress_addressColumn (a : UInt32) : readAddress (addressColumn a) = .ok a := by
  have hmod : a.toNat % 16 ^ 8 = a.toNat := Nat.mod_eq_of_lt a.toNat_lt
  have hread : readNumber 16 UInt32.size (Text.hexDigits .upper 8 a.toNat) =
      .ok (a.toNat % 16 ^ 8) := by
    apply Text.readNumber_hexDigits .upper (by decide)
    rw [hmod]
    exact a.toNat_lt
  have hlist : (addressColumn a).toList = '0' :: 'x' :: Text.hexDigits .upper 8 a.toNat :=
    toList_append_ofList "0x" _
  rw [readAddress, hlist]
  change (readNumber 16 UInt32.size _).map _ = _
  rw [hread, hmod]
  exact congrArg Except.ok UInt32.ofNat_toNat

/-- An address is read from a text exactly if the text stands for a number below 2^32 in hexadecimal
digits after `0x` or `0X` or in decimal digits, and the address is that number. A larger number is
refused, as is every text that stands for no number. Zeros before the digits change nothing. What is
printed for an address, in its column or in decimal digits, is read as the address. -/
theorem readAddress_exact :
    (∀ (text : String) (a : UInt32),
      readAddress text = .ok a ↔ IsAddress text.toList a.toNat) ∧
    (∀ (text : String) (value : Nat), IsAddress text.toList value →
      readAddress text =
        if value < 2 ^ 32 then .ok (UInt32.ofNat value) else .error .tooLarge) ∧
    (∀ text : String, (∀ value < 2 ^ 32, ¬IsAddress text.toList value) →
      ∃ e, readAddress text = .error e) ∧
    (∀ (zeros : Nat) (text : List Char) (digits : List Nat), text ≠ [] →
      (List.Forall₂ (IsDigitOf 16) text digits → ∀ lead ∈ ["0x", "0X", "0x+", "0X+"],
        readAddress (lead ++ String.ofList (List.replicate zeros '0' ++ text)) =
          readAddress (lead ++ String.ofList text)) ∧
      (List.Forall₂ (IsDigitOf 10) text digits → ∀ lead ∈ ["", "+"],
        readAddress (lead ++ String.ofList (List.replicate zeros '0' ++ text)) =
          readAddress (lead ++ String.ofList text))) ∧
    ∀ a : UInt32, readAddress (addressColumn a) = .ok a ∧
      readAddress (Text.decimal a.toNat) = .ok a := by
  refine ⟨fun text a => readAddress_eq_ok_iff, fun text value h => h.readAddress_eq, ?_, ?_,
    fun a => ⟨readAddress_addressColumn a, readAddress_eq_ok_iff.mpr (isAddress_decimal _)⟩⟩
  · intro text hnone
    cases hread : readAddress text with
    | error e => exact ⟨e, rfl⟩
    | ok a => exact absurd (readAddress_eq_ok_iff.mp hread) (hnone _ a.toNat_lt)
  · intro zeros text digits ne_nil
    refine ⟨fun h lead hlead => ?_, fun h lead hlead => ?_⟩
    · obtain ⟨hplain, hplus⟩ := isNumber_replicate_append h ne_nil zeros
      simp only [List.mem_cons, List.not_mem_nil, or_false] at hlead
      rcases hlead with rfl | rfl | rfl | rfl
      · exact readAddress_append_congr (.hexadecimal (.inl rfl) hplain)
          (.hexadecimal (.inl rfl) (.plain h ne_nil))
      · exact readAddress_append_congr (.hexadecimal (.inr rfl) hplain)
          (.hexadecimal (.inr rfl) (.plain h ne_nil))
      · exact readAddress_append_congr (.hexadecimal (.inl rfl) hplus)
          (.hexadecimal (.inl rfl) (.plus h ne_nil))
      · exact readAddress_append_congr (.hexadecimal (.inr rfl) hplus)
          (.hexadecimal (.inr rfl) (.plus h ne_nil))
    · obtain ⟨hplain, hplus⟩ := isNumber_replicate_append h ne_nil zeros
      simp only [List.mem_cons, List.not_mem_nil, or_false] at hlead
      rcases hlead with rfl | rfl
      · exact readAddress_append_congr (.decimal hplain) (.decimal (.plain h ne_nil))
      · exact readAddress_append_congr (.decimal hplus) (.decimal (.plus h ne_nil))

theorem readAddress_exact_zeros :
    readAddress ("0X+" ++ String.ofList (List.replicate 20 '0' ++ ['f', 'F'])) = .ok 0xFF ∧
      readAddress (Text.decimal (2 ^ 32)) = .error .tooLarge ∧
      ∃ e, readAddress "-1" = .error e := by
  obtain ⟨hok, hvalue, hother, hzeros, -⟩ := readAddress_exact
  refine ⟨?_, ?_, ?_⟩
  · have hdigits : List.Forall₂ (IsDigitOf 16) ['f', 'F'] [15, 15] :=
      .cons ⟨by decide, .lower, rfl⟩ (.cons ⟨by decide, .upper, rfl⟩ .nil)
    rw [(hzeros 20 ['f', 'F'] [15, 15] (by decide)).1 hdigits "0X+" (by decide)]
    apply (hok _ _).mpr
    exact .hexadecimal (.inr rfl) (.plus hdigits (by decide))
  · exact hvalue _ _ (isAddress_decimal (2 ^ 32))
  · apply hother
    intro value hlt haddress
    have hread := hvalue _ _ haddress
    rw [if_pos hlt] at hread
    cases hread

end X86Disassembly.CommandLine
