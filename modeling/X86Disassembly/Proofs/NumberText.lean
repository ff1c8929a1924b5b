import Mathlib.Algebra.GroupWithZero.Nat
import Mathlib.Tactic.Common
import X86Disassembly.CommandLine.Number
import X86Disassembly.Text.Hex

/-!
# Numbers as text

Digits that are written for a number are read as that number. So a number is known from its text,
and two numbers with the same text are the same.
-/

namespace X86Disassembly

namespace CommandLine

lemma readDigits_append (radix bound : Nat) (l m : List Char) (value : Nat) :
    readDigits radix bound (l ++ m) value =
      readDigits radix bound l value >>= readDigits radix bound m := by
  induction l generalizing value with
  | nil => rfl
  | cons c l ih =>
    rw [List.cons_append, readDigits, readDigits]
    cases digitValue? radix c with
    | none => rfl
    | some d =>
      dsimp only
      split
      · exact ih _
      · rfl

end CommandLine

namespace Text

open CommandLine

@[simp]
lemma length_hexDigits (c : LetterCase) (count n : Nat) : (hexDigits c count n).length = count := by
  induction count generalizing n with
  | zero => rfl
  | succ count ih => simp [hexDigits, ih]

lemma mem_hexDigits {c : LetterCase} {count n : Nat} {x : Char} (h : x ∈ hexDigits c count n) :
    ∃ d, d < 16 ∧ x = hexDigit c d := by
  induction count generalizing n with
  | zero => cases h
  | succ count ih =>
    rw [hexDigits, List.mem_append, List.mem_singleton] at h
    rcases h with h | rfl
    · exact ih h
    · exact ⟨n % 16, Nat.mod_lt n (by decide), rfl⟩

lemma digitValue?_hexDigit (c : LetterCase) : ∀ d < 16, digitValue? 16 (hexDigit c d) = some d := by
  cases c <;> decide

lemma hexDigit_ne_plus (c : LetterCase) : ∀ d < 16, hexDigit c d ≠ '+' := by
  cases c <;> decide

/-- Written digits are read one after another, behind any number to their left. -/
theorem readDigits_hexDigits (c : LetterCase) (count n : Nat) {bound value : Nat}
    (h : value * 16 ^ count + n % 16 ^ count < bound) :
    readDigits 16 bound (hexDigits c count n) value =
      .ok (value * 16 ^ count + n % 16 ^ count) := by
  induction count generalizing n with
  | zero => simp [hexDigits, readDigits, Nat.mod_one]
  | succ count ih =>
    have hdigit := digitValue?_hexDigit c (n % 16) (Nat.mod_lt n (by decide))
    have hpow : 16 ^ (count + 1) = 16 ^ count * 16 := by rw [Nat.pow_succ]
    have hmod : n % 16 ^ (count + 1) = n % 16 + 16 * (n / 16 % 16 ^ count) := by
      rw [hpow, Nat.mul_comm, Nat.mod_mul]
    have hvalue : value * 16 ^ (count + 1) + n % 16 ^ (count + 1) =
        (value * 16 ^ count + n / 16 % 16 ^ count) * 16 + n % 16 := by
      rw [hmod, hpow, ← Nat.mul_assoc]
      omega
    rw [hvalue] at h ⊢
    rw [hexDigits, readDigits_append, ih (n / 16) (by omega)]
    change readDigits 16 bound [_] _ = _
    rw [readDigits, hdigit]
    dsimp only
    rw [if_pos h, readDigits]

theorem readNumber_hexDigits (c : LetterCase) {count n bound : Nat} (hcount : 0 < count)
    (h : n % 16 ^ count < bound) :
    readNumber 16 bound (hexDigits c count n) = .ok (n % 16 ^ count) := by
  have hread : readDigits 16 bound (hexDigits c count n) 0 = _ :=
    readDigits_hexDigits c count n (by omega)
  rw [Nat.zero_mul, Nat.zero_add] at hread
  rw [← hread]
  cases hdigits : hexDigits c count n with
  | nil =>
    have hlength := length_hexDigits c count n
    rw [hdigits] at hlength
    exact absurd hlength (Nat.ne_of_lt hcount)
  | cons x l =>
    have hx : x ≠ '+' := by
      obtain ⟨d, hd, rfl⟩ := mem_hexDigits (hdigits ▸ List.mem_cons_self)
      exact hexDigit_ne_plus c d hd
    simp [readNumber, hx]

lemma hexDigits_mod (c : LetterCase) (count n : Nat) :
    hexDigits c count (n % 16 ^ count) = hexDigits c count n := by
  induction count generalizing n with
  | zero => rfl
  | succ count ih =>
    have hhigh : n % 16 ^ (count + 1) / 16 = n / 16 % 16 ^ count := by
      rw [Nat.pow_succ', Nat.mod_mul_right_div_self]
    have hlow : n % 16 ^ (count + 1) % 16 = n % 16 :=
      Nat.mod_mod_of_dvd n ⟨16 ^ count, Nat.pow_succ'⟩
    rw [hexDigits, hexDigits, hhigh, hlow, ih]

lemma fixed_mod (c : LetterCase) (count n : Nat) :
    fixed c count (n % 16 ^ count) = fixed c count n := by
  rw [fixed, fixed, hexDigits_mod]

lemma mod_eq_of_hexDigits_eq {c : LetterCase} {count n m : Nat}
    (h : hexDigits c count n = hexDigits c count m) : n % 16 ^ count = m % 16 ^ count := by
  have hbound : ∀ k, 0 * 16 ^ count + k % 16 ^ count < 16 ^ count := by
    intro k
    have hlt := Nat.mod_lt k (Nat.pow_pos (n := count) (show 0 < 16 by decide))
    omega
  have hread := readDigits_hexDigits c count n (hbound n)
  rw [h, readDigits_hexDigits c count m (hbound m)] at hread
  have heq := Except.ok.inj hread
  omega

lemma mod_eq_of_fixed_eq {c : LetterCase} {count n m : Nat}
    (h : fixed c count n = fixed c count m) :
    n % 16 ^ count = m % 16 ^ count :=
  mod_eq_of_hexDigits_eq (String.ofList_injective h)

lemma lt_pow_hexLength (n : Nat) : n < 16 ^ hexLength n := by
  have hlog : n < 2 ^ (n.log2 + 1) := Nat.lt_log2_self
  have hpow : 16 ^ hexLength n = 2 ^ (4 * (n.log2 / 4 + 1)) := by
    rw [Nat.pow_mul, hexLength]
  have hle : 2 ^ (n.log2 + 1) ≤ 2 ^ (4 * (n.log2 / 4 + 1)) :=
    Nat.pow_le_pow_right (by decide) (by omega)
  omega

end Text

end X86Disassembly
