/-!
# Numbers in arguments

A number is an optional plus sign and digits, any number of zeros first. It is read from the left,
so the first character that is no digit, or the first digit that makes the number too large, decides
the error.
-/

namespace X86Disassembly.CommandLine

/-- Why a text is not a number. -/
inductive NumberError
  | empty
  | invalidDigit
  | tooLarge
  deriving DecidableEq

def NumberError.message : NumberError → String
  | empty => "cannot parse integer from empty string"
  | invalidDigit => "invalid digit found in string"
  | tooLarge => "number too large to fit in target type"

/-- The value of a hexadecimal digit of either case. -/
def hexValue? (c : Char) : Option Nat :=
  if '0' ≤ c ∧ c ≤ '9' then some (c.toNat - '0'.toNat)
  else if 'a' ≤ c ∧ c ≤ 'f' then some (c.toNat - 'a'.toNat + 10)
  else if 'A' ≤ c ∧ c ≤ 'F' then some (c.toNat - 'A'.toNat + 10)
  else none

/-- The value of a digit in a radix up to sixteen. -/
def digitValue? (radix : Nat) (c : Char) : Option Nat :=
  (hexValue? c).filter (· < radix)

/-- Read digits after a number that stands to their left. -/
def readDigits (radix bound : Nat) : List Char → Nat → Except NumberError Nat
  | [], value => .ok value
  | c :: rest, value =>
    match digitValue? radix c with
    | none => .error .invalidDigit
    | some d =>
      if value * radix + d < bound then readDigits radix bound rest (value * radix + d)
      else .error .tooLarge

/-- Read a number below a bound. -/
def readNumber (radix bound : Nat) : List Char → Except NumberError Nat
  | [] => .error .empty
  | ['+'] => .error .invalidDigit
  | '+' :: digits => readDigits radix bound digits 0
  | digits => readDigits radix bound digits 0

/-- Read an address: hexadecimal after `0x` or `0X`, else decimal. -/
def readAddress (text : String) : Except NumberError UInt32 :=
  match text.toList with
  | '0' :: 'x' :: digits | '0' :: 'X' :: digits =>
    (readNumber 16 UInt32.size digits).map UInt32.ofNat
  | digits => (readNumber 10 UInt32.size digits).map UInt32.ofNat

/-- Read a count of lines. -/
def readCount (text : String) : Except NumberError Nat :=
  readNumber 10 UInt64.size text.toList

end X86Disassembly.CommandLine
