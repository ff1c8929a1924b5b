import X86Disassembly.Text.Hex

/-!
# Register values

A value read from a register keeps its width, and is read back only at that width.
-/

namespace X86Disassembly.Register

/-- Width of a register value. -/
inductive Width
  | byte
  | word
  | dword
  | qword
  deriving DecidableEq

namespace Width

def bits : Width → Nat
  | byte => 8
  | word => 16
  | dword => 32
  | qword => 64

def name : Width → String
  | byte => "Byte"
  | word => "Word"
  | dword => "Dword"
  | qword => "Qword"

end Width

/-- A register value with its width. -/
structure Value where
  width : Width
  content : BitVec width.bits

/-- A value was asked for at a width it does not have. -/
structure WidthMismatch where
  actual : Width
  requested : Width
  deriving DecidableEq

def WidthMismatch.message (e : WidthMismatch) : String :=
  "register value is " ++ e.actual.name ++ ", cannot read it as " ++ e.requested.name

namespace Value

/-- The low bits of a number that fit the width. -/
def truncate (width : Width) (raw : Nat) : Value :=
  ⟨width, BitVec.ofNat _ raw⟩

def toNat (v : Value) : Nat :=
  v.content.toNat

/-- The content at a width, if it is the width of the value. -/
def readAs (v : Value) (requested : Width) : Except WidthMismatch (BitVec requested.bits) :=
  if h : v.width = requested then .ok (h ▸ v.content) else .error ⟨v.width, requested⟩

/-- All digits of the width, in upper case. -/
def text (v : Value) : String :=
  Text.fixed .upper (v.width.bits / 4) v.toNat

end Value

end X86Disassembly.Register
