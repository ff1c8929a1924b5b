import X86Disassembly.Opcode.Form

/-!
# Operand shapes

The two-letter codes of the opcode maps. The first letter is the source: `e` register or memory,
`g` register in `reg`, `i` immediate, `j` branch distance, `o` absolute offset, `m` memory, `x` and
`y` string source and destination. The second is the width: `b`, `w`, `d`, `q`, `t`, or `v` for the
effective operand size.
-/

namespace X86Disassembly.Template

/-- A shape of fixed width. -/
def sized (source : Source) (size : OperandSize) : Template :=
  ⟨source, some size⟩

/-- A shape of the effective operand size. -/
def effective (source : Source) : Template :=
  ⟨source, none⟩

def eb : Template := sized .rm .bits8
def ew : Template := sized .rm .bits16
def ev : Template := effective .rm
def gb : Template := sized .reg .bits8
def gw : Template := sized .reg .bits16
def gv : Template := effective .reg
def sw : Template := sized .regSegment .bits16
def ib : Template := sized .immediate .bits8
def iw : Template := sized .immediate .bits16
def iv : Template := effective .immediate
def ib2 : Template := sized .immediate2 .bits8
def jb : Template := sized .relative .bits8
def jv : Template := effective .relative
def ob : Template := sized .absolute .bits8
def ov : Template := effective .absolute
def ap : Template := effective .farPointer

/-- Memory whose layout the operation knows. -/
def m : Template := ev
def mw : Template := ew
def md : Template := sized .rm .bits32
def mq : Template := sized .rm .bits64
def mt : Template := sized .rm .bits80

def rd : Template := sized .rmRegister .bits32
def cd : Template := sized .regControl .bits32
def dd : Template := sized .regDebug .bits32
def td : Template := sized .regTest .bits32

def xb : Template := sized (.stringPointer 6) .bits8
def xv : Template := effective (.stringPointer 6)
def yb : Template := sized (.stringPointer 7) .bits8
def yv : Template := effective (.stringPointer 7)

def reg8 (id : UInt8) : Template := sized (.register id) .bits8
def regv (id : UInt8) : Template := effective (.register id)
def sreg (s : Segment) : Template := sized (.segment s) .bits16
def cc (c : Condition) : Template := effective (.condition c)

/-- A number that is part of the opcode. -/
def cb (value : UInt32) : Template := sized (.constant value) .bits8

/-- A register of the coprocessor stack. -/
def st (index : UInt8) : Template := sized (.stack index) .bits80

def al : Template := reg8 0
def cl : Template := reg8 1
def dx : Template := sized (.register 2) .bits16
def ax : Template := sized (.register 0) .bits16
def eax : Template := regv 0

end X86Disassembly.Template
