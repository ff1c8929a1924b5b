/-!
# Hexadecimal and decimal text

`fixed` writes an exact number of digits and so the number modulo a power of sixteen; `shortest`
writes as few as the number needs.
-/

namespace X86Disassembly.Text

/-- Which letters stand for the digits from ten to fifteen. -/
inductive LetterCase
  | lower
  | upper
  deriving DecidableEq

/-- The digit for a value below sixteen. -/
def hexDigit : LetterCase → Nat → Char
  | .lower, d => d.digitChar
  | .upper, d => d.digitChar.toUpper

/-- The lowest `count` digits, highest first. -/
def hexDigits (c : LetterCase) : Nat → Nat → List Char
  | 0, _ => []
  | count + 1, n => hexDigits c count (n / 16) ++ [hexDigit c (n % 16)]

/-- Digits a number needs; zero needs one. -/
def hexLength (n : Nat) : Nat :=
  n.log2 / 4 + 1

/-- Exactly `count` digits. -/
def fixed (c : LetterCase) (count n : Nat) : String :=
  String.ofList (hexDigits c count n)

/-- At least `count` digits, and more where the number needs them. -/
def padded (c : LetterCase) (count n : Nat) : String :=
  fixed c (max count (hexLength n)) n

/-- No leading zeros. -/
def shortest (c : LetterCase) (n : Nat) : String :=
  fixed c (hexLength n) n

def decimal (n : Nat) : String :=
  String.ofList (Nat.toDigits 10 n)

/-- A number as `0x` and lower-case digits. -/
def hexNumber (n : Nat) : String :=
  "0x" ++ shortest .lower n

/-- Two digits for a byte. -/
def hexByte (c : LetterCase) (b : UInt8) : String :=
  fixed c 2 b.toNat

end X86Disassembly.Text
