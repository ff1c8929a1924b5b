/-!
# Branch conditions

The condition of `jcc`, `setcc`, `cmovcc` and `loopcc`. Sixteen of them are encoded in the low
four bits of an opcode; `always` and `cxZero` belong to single opcodes.
-/

namespace X86Disassembly

inductive Condition
  | always
  | overflow
  | notOverflow
  | sign
  | notSign
  | equal
  | notEqual
  | below
  | aboveOrEqual
  | belowOrEqual
  | above
  | less
  | greaterOrEqual
  | lessOrEqual
  | greater
  | parity
  | notParity
  | cxZero
  deriving DecidableEq

namespace Condition

/-- The letters a condition adds to a mnemonic stem. -/
def suffix : Condition → String
  | always => ""
  | overflow => "o"
  | notOverflow => "no"
  | sign => "s"
  | notSign => "ns"
  | equal => "e"
  | notEqual => "ne"
  | below => "b"
  | aboveOrEqual => "ae"
  | belowOrEqual => "be"
  | above => "a"
  | less => "l"
  | greaterOrEqual => "ge"
  | lessOrEqual => "le"
  | greater => "g"
  | parity => "p"
  | notParity => "np"
  | cxZero => "cxz"

/-- The encoded conditions, in the order of their four-bit codes. -/
def encoded : Vector Condition 16 :=
  #v[overflow, notOverflow, below, aboveOrEqual, equal, notEqual, belowOrEqual, above,
    sign, notSign, parity, notParity, less, greaterOrEqual, lessOrEqual, greater]

/-- The condition in the low four bits of an opcode byte. -/
def ofOpcode (byte : UInt8) : Condition :=
  encoded.get (Fin.ofNat 16 byte.toNat)

end Condition

end X86Disassembly
