import Mathlib.Algebra.Group.Int.Defs
import Mathlib.Data.Fintype.Basic
import Mathlib.Tactic.FinCases
import X86Disassembly.Proofs.CleanText

/-!
# Reading memory expressions

The text between the brackets of a memory operand is a sum of registers, one of them perhaps
multiplied, and a number. It is read word by word, with given values in the registers, and what is
read is the sum that was written.
-/

namespace X86Disassembly

structure RegisterFile where
  eax : UInt32
  ecx : UInt32
  edx : UInt32
  ebx : UInt32
  esp : UInt32
  ebp : UInt32
  esi : UInt32
  edi : UInt32

namespace RegisterFile

/-- The value of the register with a number from 0 to 7. -/
def get (r : RegisterFile) : Nat → Nat
  | 0 => r.eax.toNat
  | 1 => r.ecx.toNat
  | 2 => r.edx.toNat
  | 3 => r.ebx.toNat
  | 4 => r.esp.toNat
  | 5 => r.ebp.toNat
  | 6 => r.esi.toNat
  | _ => r.edi.toNat

variable (r : RegisterFile)

/-- The value of a register in an address, by its name. -/
def value? : String → Option Nat
  | "eax" => some r.eax.toNat
  | "ecx" => some r.ecx.toNat
  | "edx" => some r.edx.toNat
  | "ebx" => some r.ebx.toNat
  | "esp" => some r.esp.toNat
  | "ebp" => some r.ebp.toNat
  | "esi" => some r.esi.toNat
  | "edi" => some r.edi.toNat
  | "ax" => some (r.eax.toNat % 2 ^ 16)
  | "cx" => some (r.ecx.toNat % 2 ^ 16)
  | "dx" => some (r.edx.toNat % 2 ^ 16)
  | "bx" => some (r.ebx.toNat % 2 ^ 16)
  | "sp" => some (r.esp.toNat % 2 ^ 16)
  | "bp" => some (r.ebp.toNat % 2 ^ 16)
  | "si" => some (r.esi.toNat % 2 ^ 16)
  | "di" => some (r.edi.toNat % 2 ^ 16)
  | _ => none

/-- The value of a word. With a final `h` it is a hexadecimal number, also `ah`, since no address
has a register of eight bits; otherwise it is a register or a decimal number. -/
def atom? (word : String) : Option Nat :=
  let digits := word.toList
  if digits.getLast? = some 'h' then
    (CommandLine.readNumber 16 UInt32.size digits.dropLast).toOption
  else (r.value? word).or (CommandLine.readNumber 10 UInt32.size digits).toOption

/-- Read words that are signs and values in turn, behind a sum and its last term. The last term is
kept apart because a factor may follow. -/
def readTerms (total last : Int) : List String → Option Int
  | [] => some (total + last)
  | [_] => none
  | sign :: word :: rest =>
    (r.atom? word).bind fun n =>
      if sign = "+" then readTerms (total + last) n rest
      else if sign = "-" then readTerms (total + last) (-n) rest
      else if sign = "*" then readTerms total (last * n) rest
      else none

end RegisterFile

/-- The words of a text, with a blank between any two. -/
def Text.words (text : String) : List String :=
  (text.toList.splitOn ' ').map String.ofList

/-- The value of a sum. -/
def RegisterFile.evaluate? (r : RegisterFile) (text : String) : Option Int :=
  r.readTerms 0 0 ("+" :: Text.words text)

namespace Text

lemma words_append (s t : String) : words (s ++ " " ++ t) = words s ++ words t := by
  have hsplit : (s ++ " " ++ t).toList = s.toList ++ ' ' :: t.toList := by
    simp
  rw [words, hsplit, List.splitOn, List.splitOnP_append_cons _ _ (by rfl), List.map_append]
  rfl

lemma words_of_trimmed {s : String} (h : Trimmed isWordLetter s) : words s = [s] := by
  have hblank : ' ' ∉ s.toList := not_mem_of_all rfl h.all
  rw [words, List.splitOn_eq_singleton hblank, List.map_singleton, String.ofList_toList]

lemma words_sign (sign : String) (hsign : words sign = [sign]) (s t : String) :
    words (s ++ (" " ++ sign ++ " ") ++ t) = words s ++ sign :: words t := by
  have hsplit : s ++ (" " ++ sign ++ " ") ++ t = s ++ " " ++ (sign ++ " " ++ t) := by
    simp only [String.append_assoc]
  rw [hsplit, words_append, words_append, hsign, List.singleton_append]

lemma words_sum {l : List String} (h : l ≠ []) :
    "+" :: words (" + ".intercalate l) = l.flatMap fun s => "+" :: words s := by
  induction l with
  | nil => exact absurd rfl h
  | cons s l ih =>
    cases l with
    | nil => simp
    | cons t l =>
      have hrest := ih (List.cons_ne_nil t l)
      have hwords : words (s ++ " + " ++ " + ".intercalate (t :: l)) =
          words s ++ "+" :: words (" + ".intercalate (t :: l)) := words_sign "+" rfl s _
      rw [String.intercalate_cons_cons, List.flatMap_cons, ← hrest, hwords]
      rfl

end Text

namespace RegisterFile

variable (r : RegisterFile)

def read (size : AddressSize) (id : Fin 8) : Nat :=
  r.get id % 2 ^ size.bits

lemma get_lt (id : Nat) : r.get id < 2 ^ 32 := by
  unfold get
  split <;> exact UInt32.toNat_lt _

lemma read_bits32 (id : Fin 8) : r.read .bits32 id = r.get id :=
  Nat.mod_eq_of_lt (r.get_lt id)

lemma atom?_addressName (size : AddressSize) (id : Fin 8) :
    r.atom? (Register.addressName size id) = some (r.read size id) := by
  cases size with
  | bits16 => fin_cases id <;> rfl
  | bits32 =>
    rw [read_bits32]
    fin_cases id <;> rfl

lemma atom?_hexDigits {count n : Nat} (hcount : 0 < count) (hn : n % 16 ^ count < UInt32.size) :
    r.atom? (Text.fixed .lower count n ++ "h") = some (n % 16 ^ count) := by
  have hlist : (Text.fixed .lower count n ++ "h").toList =
      Text.hexDigits .lower count n ++ ['h'] := by
    rw [String.toList_append, Text.fixed, String.toList_ofList]
    rfl
  rw [atom?, hlist]
  simp only [List.getLast?_append, List.getLast?_singleton, Option.some_or, if_true,
    List.dropLast_concat, Text.readNumber_hexDigits .lower hcount hn]
  rfl

lemma atom?_factor (scale : Fin 4) :
    r.atom? (Text.decimal (1 <<< scale.val)) = some (2 ^ scale.val) := by
  fin_cases scale <;> rfl

end RegisterFile

namespace MemoryExpression

/-- A register by number, times a power of two. -/
def addend (size : AddressSize) (a : Fin 8 × Fin 4) : Term :=
  ⟨Register.addressName size a.1, a.2⟩

variable (r : RegisterFile) (size : AddressSize)

def addendValue (a : Fin 8 × Fin 4) : Nat :=
  r.read size a.1 * 2 ^ a.2.val

lemma readTerms_addend (a : Fin 8 × Fin 4) (total last : Int) (rest : List String) :
    r.readTerms total last ("+" :: Text.words (addend size a).text ++ rest) =
      r.readTerms (total + last) (addendValue r size a) rest := by
  obtain ⟨id, scale⟩ := a
  have hname := Text.words_of_trimmed (Text.trimmed_addressName size id id.isLt)
  have hlt : ∀ s : Fin 4, 1 <<< s.val < 16 := by decide
  have hfactor := Text.words_of_trimmed (Text.trimmed_decimal _ (hlt scale))
  by_cases hscale : scale.val = 0
  · have htext : (addend size (id, scale)).text = Register.addressName size id := by
      simp [addend, hscale]
    simp [htext, hname, RegisterFile.readTerms, r.atom?_addressName, addendValue, hscale]
  · have htext : (addend size (id, scale)).text =
        Register.addressName size id ++ (" " ++ "*" ++ " ") ++ Text.decimal (1 <<< scale.val) :=
      if_neg hscale
    rw [htext, Text.words_sign "*" rfl, hname, hfactor]
    simp [RegisterFile.readTerms, r.atom?_addressName, r.atom?_factor, addendValue]

lemma readTerms_sum {n : Int} {rest : List String}
    (hrest : ∀ total last, r.readTerms total last rest = some (total + last + n))
    (l : List (Fin 8 × Fin 4)) (total last : Int) :
    r.readTerms total last
        ((l.map (addend size)).flatMap (fun t => "+" :: Text.words t.text) ++ rest) =
      some (total + last + (l.map (addendValue r size)).sum + n) := by
  induction l generalizing total last with
  | nil => simp [hrest]
  | cons a l ih =>
    rw [List.map_cons, List.flatMap_cons, List.append_assoc, readTerms_addend, ih, List.map_cons,
      List.sum_cons]
    congr 1
    omega

lemma exists_words_distance {n : Int} (hn : n.natAbs < UInt32.size) (s : String) :
    ∃ rest, Text.words (s ++ (Offset.distance n).text) = Text.words s ++ rest ∧
      ∀ total last, r.readTerms total last rest = some (total + last + n) := by
  by_cases hzero : n = 0
  · refine ⟨[], ?_, ?_⟩
    · simp [Offset.text, hzero]
    · simp [RegisterFile.readTerms, hzero]
  · let digits := Text.shortest .lower n.natAbs ++ "h"
    have htrimmed : Text.Trimmed Text.isWordLetter digits :=
      (Text.trimmed_fixed (Nat.succ_ne_zero _) _).append (by decide) (by decide)
    have hmod : n.natAbs % 16 ^ Text.hexLength n.natAbs = n.natAbs :=
      Nat.mod_eq_of_lt (Text.lt_pow_hexLength _)
    have hatom : r.atom? digits = some n.natAbs := by
      have hpos : 0 < Text.hexLength n.natAbs := Nat.succ_pos _
      have hatom := r.atom?_hexDigits hpos (hmod.symm ▸ hn)
      rwa [hmod] at hatom
    by_cases hneg : n < 0
    · have htext : s ++ (Offset.distance n).text = s ++ (" " ++ "-" ++ " ") ++ digits := by
        rw [Offset.text, if_neg hzero, if_pos hneg, String.append_assoc, String.append_assoc]
        rfl
      refine ⟨["-", digits], ?_, ?_⟩
      · rw [htext, Text.words_sign "-" rfl, Text.words_of_trimmed htrimmed]
      · intro total last
        rw [RegisterFile.readTerms, hatom, Option.bind_some, if_neg (by decide), if_pos rfl,
          RegisterFile.readTerms]
        congr 1
        omega
    · have htext : s ++ (Offset.distance n).text = s ++ (" " ++ "+" ++ " ") ++ digits := by
        rw [Offset.text, if_neg hzero, if_neg hneg, String.append_assoc, String.append_assoc]
        rfl
      refine ⟨["+", digits], ?_, ?_⟩
      · rw [htext, Text.words_sign "+" rfl, Text.words_of_trimmed htrimmed]
      · intro total last
        rw [RegisterFile.readTerms, hatom, Option.bind_some, if_pos rfl, RegisterFile.readTerms]
        congr 1
        omega

/-- The text of a sum of registers and a distance is read as that sum. -/
theorem evaluate?_sum {l : List (Fin 8 × Fin 4)} (hl : l ≠ []) {n : Int}
    (hn : n.natAbs < UInt32.size) :
    r.evaluate? (text ⟨l.map (addend size), .distance n⟩) =
      some ((l.map (addendValue r size)).sum + n) := by
  obtain ⟨rest, hwords, hrest⟩ := exists_words_distance r hn
    (" + ".intercalate ((l.map (addend size)).map Term.text))
  have hne : (l.map (addend size)).map Term.text ≠ [] := by simpa using hl
  rw [RegisterFile.evaluate?, text, hwords, ← List.cons_append, Text.words_sum hne,
    List.flatMap_map, readTerms_sum r size hrest]
  simp

/-- The text of an address is read as the address, as far as it is printed. -/
theorem evaluate?_absolute (value : UInt32) :
    r.evaluate? (text ⟨[], .absolute size value⟩) = some (value.toNat % 2 ^ size.bits) := by
  have hwords := Text.words_of_trimmed (Text.trimmed_hexConstant size.bytes value)
  have hpow : 16 ^ (2 * size.bytes) = 2 ^ size.bits := by cases size <;> rfl
  have hlt : value.toNat % 16 ^ (2 * size.bytes) < UInt32.size :=
    Nat.lt_of_le_of_lt (Nat.mod_le _ _) value.toNat_lt
  have hatom : r.atom? (Text.hexConstant size.bytes value) =
      some (value.toNat % 2 ^ size.bits) := by
    rw [← hpow]
    exact r.atom?_hexDigits (by cases size <;> decide) hlt
  have htext : text ⟨[], .absolute size value⟩ = Text.hexConstant size.bytes value := by
    simp [text, Offset.text]
  rw [RegisterFile.evaluate?, htext, hwords]
  simp [RegisterFile.readTerms, hatom]

end MemoryExpression

end X86Disassembly
