import X86Disassembly.CommandLine.Number
import X86Disassembly.Text.Hex

/-!
# Bytes as hexadecimal text

`readBytes` reads pairs of digits; blanks and commas may stand anywhere between digits.
`byteColumn` prints bytes in a column of a listing, which reads back as the same bytes.
-/

namespace X86Disassembly.CommandLine

/-- Why a text is not a list of bytes. -/
inductive HexError
  | noBytes
  | oddDigits
  | badDigit (byte : UInt8)
  deriving DecidableEq

/-- A space, a tab, a line feed, a form feed, a carriage return or a comma. -/
def isSeparator (byte : UInt8) : Bool :=
  byte == 0x20 || byte == 0x09 || byte == 0x0A || byte == 0x0C || byte == 0x0D || byte == 0x2C

/-- The value of the digit that a byte encodes. -/
def byteDigit? (byte : UInt8) : Option Nat :=
  hexValue? (Char.ofNat byte.toNat)

/-- Join digits to bytes, two by two. -/
def joinDigits : List Nat → List UInt8
  | high :: low :: rest => UInt8.ofNat (16 * high + low) :: joinDigits rest
  | _ => []

/-- Read bytes from the encoding of a text. -/
def readEncoded (encoded : List UInt8) : Except HexError (List UInt8) :=
  let digits := encoded.filter (!isSeparator ·)
  if digits.isEmpty then .error .noBytes
  else if digits.length % 2 != 0 then .error .oddDigits
  else
    match digits.find? fun b => (byteDigit? b).isNone with
    | some bad => .error (.badDigit bad)
    | none => .ok (joinDigits (digits.filterMap byteDigit?))

/-- Read bytes from a text. -/
def readBytes (text : String) : Except HexError (List UInt8) :=
  readEncoded text.toUTF8.data.toList

/-- A byte as a quoted character: what does not print is written by its number, and a quote or a
backslash after a backslash. -/
def quotedByte (byte : UInt8) : String :=
  let n := byte.toNat
  let inner : String :=
    if n = 0x00 then "\\0"
    else if n = 0x09 then "\\t"
    else if n = 0x0A then "\\n"
    else if n = 0x0D then "\\r"
    else if n = 0x27 then "\\'"
    else if n = 0x5C then "\\\\"
    else if n < 0x20 ∨ (0x7F ≤ n ∧ n ≤ 0xA0) ∨ n = 0xAD then
      "\\u\x7b" ++ Text.shortest .lower n ++ "\x7d"
    else (Char.ofNat n).toString
  "'" ++ inner ++ "'"

def HexError.message : HexError → String
  | noBytes => "hex string contains no bytes"
  | oddDigits => "hex string has an odd number of digits"
  | badDigit byte => "invalid hex digit " ++ quotedByte byte

/-- Bytes that a column of a listing has room for. -/
def columnBytes : Nat := 6

/-- Bytes as pairs of digits, each with a blank after it, filled up to the width of the column. -/
def byteColumn (bytes : List UInt8) : String :=
  String.join (bytes.map fun b => Text.hexByte .upper b ++ " ")
    ++ String.join (List.replicate (columnBytes - bytes.length) "   ")

end X86Disassembly.CommandLine
