import X86Disassembly.Operand
import X86Disassembly.Operation
import X86Disassembly.Prefix

/-!
# Rows of the opcode maps

A map is looked up in levels. The first byte is a prefix, the escape to the second map, or an
opcode. An opcode is undefined, has one form, or leaves the form to its ModRM byte. No level leads
back to an earlier one.
-/

namespace X86Disassembly

/-- The shape of an operand: a source, and its width unless that is the effective operand size. -/
structure Template where
  source : Source
  size : Option OperandSize
  deriving DecidableEq

namespace Template

def unused : Template :=
  ⟨.unused, none⟩

/-- The operand at an effective operand size. -/
def instantiate (t : Template) (effective : OperandSize) : Operand :=
  ⟨t.source, t.size.getD effective⟩

end Template

/-- An instruction as the map lists it. -/
structure Form where
  operation : Operation
  operands : Slots Template
  deriving DecidableEq

namespace Form

def of (operation : Operation) (operands : List Template) : Form :=
  ⟨operation, .ofList .unused operands⟩

/-- A ModRM byte follows the opcode. -/
def usesModRM (f : Form) : Bool :=
  f.operands.toList.any (·.source.usesModRM)

end Form

/-- Eight forms selected by the `reg` field of the ModRM byte. -/
abbrev Group := Vector (Option Form) 8

/-- Seventy-two forms selected by the whole ModRM byte, as `ModRM.escapeRow` counts them. -/
abbrev EscapeGroup := Vector (Option Form) 72

/-- What an opcode stands for. -/
inductive Entry
  | undefined
  | form (f : Form)
  | group (rows : Group)
  | coprocessor (rows : EscapeGroup)
  deriving DecidableEq

namespace Entry

def op (operation : Operation) (operands : List Template) : Entry :=
  form (.of operation operands)

/-- The operation of an entry, or the marker of its kind. -/
def operation : Entry → Operation
  | undefined => .undefined
  | form f => f.operation
  | group _ => .groupExtension
  | coprocessor _ => .coprocessorExtension

end Entry

/-- What a first byte stands for. -/
inductive Lead
  | modifier (p : Prefix)
  | escape
  | opcode (e : Entry)
  deriving DecidableEq

namespace Lead

def undefined : Lead :=
  opcode .undefined

def op (operation : Operation) (operands : List Template) : Lead :=
  opcode (.op operation operands)

def group (rows : Group) : Lead :=
  opcode (.group rows)

def coprocessor (rows : EscapeGroup) : Lead :=
  opcode (.coprocessor rows)

/-- The operation of a row, or the marker of its kind. -/
def operation : Lead → Operation
  | modifier p => p.marker
  | escape => .escape
  | opcode e => e.operation

end Lead

end X86Disassembly
