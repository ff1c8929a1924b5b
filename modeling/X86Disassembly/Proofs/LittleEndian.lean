import Mathlib.Algebra.GroupWithZero.Nat
import Mathlib.Tactic.Common
import X86Disassembly.LittleEndian

/-!
# Bytes of little-endian numbers

The low bytes of a word give back the bytes it was read from, whether it was widened with zeros or
with its sign, as long as it was read from no more than four.
-/

namespace X86Disassembly.LittleEndian

lemma value_lt (l : List UInt8) : value l < 256 ^ l.length := by
  induction l with
  | nil => exact Nat.one_pos
  | cons b l ih =>
    have hb : b.toNat < 256 := b.toNat_lt
    rw [value, List.length_cons, Nat.pow_succ]
    omega

lemma bytes_value (l : List UInt8) : bytes l.length (value l) = l := by
  induction l with
  | nil => rfl
  | cons b l ih =>
    have hb : b.toNat < 256 := b.toNat_lt
    have hlow : UInt8.ofNat (b.toNat + 256 * value l) = b := by
      apply UInt8.toNat_inj.mp
      rw [UInt8.toNat_ofNat']
      omega
    have hhigh : (b.toNat + 256 * value l) / 256 = value l := by omega
    rw [List.length_cons, value, bytes, hlow, hhigh, ih]

lemma bytes_add_mul (count n k : Nat) : bytes count (n + 256 ^ count * k) = bytes count n := by
  induction count generalizing n with
  | zero => rfl
  | succ count ih =>
    have hpow : 256 ^ (count + 1) * k = 256 * (256 ^ count * k) := by
      rw [Nat.pow_succ, Nat.mul_comm (256 ^ count), Nat.mul_assoc]
    have hlow : UInt8.ofNat (n + 256 * (256 ^ count * k)) = UInt8.ofNat n := by
      apply UInt8.toNat_inj.mp
      rw [UInt8.toNat_ofNat', UInt8.toNat_ofNat']
      omega
    have hhigh : (n + 256 * (256 ^ count * k)) / 256 = n / 256 + 256 ^ count * k := by omega
    rw [bytes, bytes, hpow, hlow, hhigh, ih]

lemma one_shiftLeft_mul (count : Nat) : 1 <<< (8 * count) = 256 ^ count := by
  have hbyte : 2 ^ 8 = 256 := by decide
  rw [Nat.one_shiftLeft, Nat.pow_mul, hbyte]

lemma pow_le_two_pow {count : Nat} (h : count ≤ 4) : 256 ^ count ≤ 2 ^ 32 :=
  Nat.pow_le_pow_right (n := 256) (by decide) h

lemma toNat_zeroExtended {l : List UInt8} (h : l.length ≤ 4) :
    (zeroExtended l).toNat = value l := by
  have hlt := value_lt l
  have hle := pow_le_two_pow h
  rw [zeroExtended, UInt32.toNat_ofNat', Nat.mod_eq_of_lt (by omega)]

theorem bytes_zeroExtended {l : List UInt8} (h : l.length ≤ 4) :
    bytes l.length (zeroExtended l).toNat = l := by
  rw [toNat_zeroExtended h, bytes_value]

theorem bytes_signExtended {l : List UInt8} (h : l.length ≤ 4) :
    bytes l.length (signExtended l).toNat = l := by
  have hlt := value_lt l
  have hle := pow_le_two_pow h
  have hspan : 256 ^ l.length * 256 ^ (4 - l.length) = 2 ^ 32 := by
    have hfour : 256 ^ 4 = 2 ^ 32 := by decide
    rw [← Nat.pow_add, Nat.add_sub_cancel' h, hfour]
  have hsign : 2 ^ 32 - 256 ^ l.length = 256 ^ l.length * (256 ^ (4 - l.length) - 1) := by
    rw [Nat.mul_sub, hspan, Nat.mul_one]
  have hsize : UInt32.size = 2 ^ 32 := by decide
  rw [signExtended, one_shiftLeft_mul, hsize, UInt32.toNat_ofNat']
  by_cases hpos : 2 * value l < 256 ^ l.length
  · rw [if_pos hpos, Nat.mod_eq_of_lt (by omega), bytes_value]
  · rw [if_neg hpos, Nat.mod_eq_of_lt (by omega), hsign, bytes_add_mul, bytes_value]

end X86Disassembly.LittleEndian
