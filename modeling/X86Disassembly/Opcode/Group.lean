import X86Disassembly.Opcode.Template

/-!
# Groups

Opcodes whose operation is in the `reg` field of the ModRM byte. Each group is named for its
opcode.
-/

namespace X86Disassembly.Group

open Template

/-- The arithmetic operations, in the order of their three-bit code. -/
def arithmeticOps : List Operation :=
  [.add, .or, .adc, .sbb, .and, .sub, .xor, .cmp]

def arithmetic (a b : Template) : Group :=
  ⟨⟨arithmeticOps.map fun o => some (.of o [a, b])⟩, rfl⟩

def shift (a b : Template) : Group :=
  ⟨⟨[some (.of .rol [a, b]), some (.of .ror [a, b]), some (.of .rcl [a, b]),
    some (.of .rcr [a, b]), some (.of .shl [a, b]), some (.of .shr [a, b]),
    none, some (.of .sar [a, b])]⟩, rfl⟩

def unary (a immediate : Template) : Group :=
  ⟨⟨[some (.of .test [a, immediate]), none, some (.of .not [a]), some (.of .neg [a]),
    some (.of .mul [a]), some (.of .imul [a]), some (.of .div [a]), some (.of .idiv [a])]⟩, rfl⟩

def op80 : Group := arithmetic eb ib
def op81 : Group := arithmetic ev iv
def op82 : Group := arithmetic eb ib
def op83 : Group := arithmetic ev ib

def opC0 : Group := shift eb ib
def opC1 : Group := shift ev ib
def opD0 : Group := shift eb (cb 1)
def opD1 : Group := shift ev (cb 1)
def opD2 : Group := shift eb cl
def opD3 : Group := shift ev cl

def opF6 : Group := unary eb ib
def opF7 : Group := unary ev iv

def opFE : Group :=
  ⟨⟨[some (.of .inc [eb]), some (.of .dec [eb]), none, none, none, none, none, none]⟩, rfl⟩

def opFF : Group :=
  ⟨⟨[some (.of .inc [ev]), some (.of .dec [ev]), some (.of .callNear [ev]),
    some (.of .callFar [m]), some (.of .jmpNear [ev]), some (.of .jmpFar [m]),
    some (.of .push [ev]), none]⟩, rfl⟩

def op0F00 : Group :=
  ⟨⟨[some (.of .sldt [ew]), some (.of .str [ew]), some (.of .lldt [ew]), some (.of .ltr [ew]),
    some (.of .verr [ew]), some (.of .verw [ew]), none, none]⟩, rfl⟩

def op0F01 : Group :=
  ⟨⟨[some (.of .sgdt [m]), some (.of .sidt [m]), some (.of .lgdt [m]), some (.of .lidt [m]),
    some (.of .smsw [ew]), none, some (.of .lmsw [ew]), some (.of .invlpg [m])]⟩, rfl⟩

def op0FBA : Group :=
  ⟨⟨[none, none, none, none, some (.of .bt [ev, ib]), some (.of .bts [ev, ib]),
    some (.of .btr [ev, ib]), some (.of .btc [ev, ib])]⟩, rfl⟩

def op0FC7 : Group :=
  ⟨⟨[none, some (.of .cmpxchg8b [mq]), none, none, none, none, none, none]⟩, rfl⟩

end X86Disassembly.Group
