import X86Disassembly.Opcode.Template

/-!
# Coprocessor escapes

The opcodes `D8` to `DF`. Each has eight memory forms, then eight rows of eight register forms;
the row is the `reg` field and the column the `rm` field.
-/

namespace X86Disassembly.EscapeGroup

open Template

/-- Eight register forms. -/
abbrev Row := List (Option Form)

/-- A row without forms. -/
def empty : Row :=
  List.replicate 8 none

/-- The numbers of the stack registers. -/
def stackIndices : List UInt8 :=
  [0, 1, 2, 3, 4, 5, 6, 7]

/-- The stack top with each register. -/
def fromStack (o : Operation) : Row :=
  stackIndices.map fun i => some (.of o [st 0, st i])

/-- Each register with the stack top. -/
def toStack (o : Operation) : Row :=
  stackIndices.map fun i => some (.of o [st i, st 0])

/-- Each register alone. -/
def single (o : Operation) : Row :=
  stackIndices.map fun i => some (.of o [st i])

/-- Operations without operands. -/
def plain (ops : List (Option Operation)) : Row :=
  ops.map fun o => o.map fun o => .of o []

/-- The stack top with memory. -/
def withMemory (ops : List Operation) (operand : Template) : Row :=
  ops.map fun o => some (.of o [st 0, operand])

/-- Memory alone. -/
def onMemory (ops : List (Option (Operation × Template))) : Row :=
  ops.map fun o => o.map fun o => .of o.1 [o.2]

def realOps : List Operation :=
  [.fadd, .fmul, .fcom, .fcomp, .fsub, .fsubr, .fdiv, .fdivr]

def integerOps : List Operation :=
  [.fiadd, .fimul, .ficom, .ficomp, .fisub, .fisubr, .fidiv, .fidivr]

def opD8 : EscapeGroup :=
  ⟨⟨withMemory realOps md ++ realOps.flatMap fromStack⟩, rfl⟩

def opD9 : EscapeGroup :=
  ⟨⟨onMemory [some (.fld, md), none, some (.fst, md), some (.fstp, md), some (.fldenv, m),
        some (.fldcw, mw), some (.fnstenv, m), some (.fnstcw, mw)]
      ++ single .fld
      ++ single .fxch
      ++ plain [some .fnop, none, none, none, none, none, none, none]
      ++ empty
      ++ plain [some .fchs, some .fabs, none, none, some .ftst, some .fxam, none, none]
      ++ plain [some .fld1, some .fldl2t, some .fldl2e, some .fldpi, some .fldlg2, some .fldln2,
        some .fldz, none]
      ++ plain [some .f2xm1, some .fyl2x, some .fptan, some .fpatan, some .fxtract, some .fprem1,
        some .fdecstp, some .fincstp]
      ++ plain [some .fprem, some .fyl2xp1, some .fsqrt, some .fsincos, some .frndint,
        some .fscale, some .fsin, some .fcos]⟩, rfl⟩

def opDA : EscapeGroup :=
  ⟨⟨withMemory integerOps md ++ empty ++ empty ++ empty ++ empty ++ empty
      ++ plain [none, some .fucompp, none, none, none, none, none, none]
      ++ empty ++ empty⟩, rfl⟩

def opDB : EscapeGroup :=
  ⟨⟨onMemory [some (.fild, md), none, some (.fist, md), some (.fistp, md), none,
        some (.fld, mt), none, some (.fstp, mt)]
      ++ empty ++ empty ++ empty ++ empty
      ++ plain [some .fneni, some .fndisi, some .fnclex, some .fninit, some .fsetpm, none, none,
        none]
      ++ empty ++ empty ++ empty⟩, rfl⟩

def opDC : EscapeGroup :=
  ⟨⟨withMemory realOps mq ++ toStack .fadd ++ toStack .fmul ++ empty ++ empty
      ++ toStack .fsubr ++ toStack .fsub ++ toStack .fdivr ++ toStack .fdiv⟩, rfl⟩

def opDD : EscapeGroup :=
  ⟨⟨onMemory [some (.fld, mq), none, some (.fst, mq), some (.fstp, mq), some (.frstor, m),
        none, some (.fnsave, m), some (.fnstsw, mw)]
      ++ single .ffree ++ empty ++ single .fst ++ single .fstp ++ single .fucom
      ++ single .fucomp ++ empty ++ empty⟩, rfl⟩

def opDE : EscapeGroup :=
  ⟨⟨withMemory integerOps mw ++ toStack .faddp ++ toStack .fmulp ++ empty
      ++ plain [none, some .fcompp, none, none, none, none, none, none]
      ++ toStack .fsubrp ++ toStack .fsubp ++ toStack .fdivrp ++ toStack .fdivp⟩, rfl⟩

def opDF : EscapeGroup :=
  ⟨⟨onMemory [some (.fild, mw), none, some (.fist, mw), some (.fistp, mw), some (.fbld, mt),
        some (.fild, mq), some (.fbstp, mt), some (.fistp, mq)]
      ++ empty ++ empty ++ empty ++ empty
      ++ [some (.of .fnstsw [ax]), none, none, none, none, none, none, none]
      ++ empty ++ empty ++ empty⟩, rfl⟩

end X86Disassembly.EscapeGroup
