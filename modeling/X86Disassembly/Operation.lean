/-!
# Operations

Every operation the opcode maps can name. The first ten are markers: they stand for map rows that
are not instructions (an undefined opcode, a prefix byte, an opcode that continues elsewhere).
-/

namespace X86Disassembly

inductive Operation
  | undefined
  | escape
  | groupExtension
  | coprocessorExtension
  | segmentPrefix
  | repPrefix
  | repNePrefix
  | lockPrefix
  | operandSizePrefix
  | addressSizePrefix
  | aaa
  | aad
  | aam
  | aas
  | adc
  | add
  | and
  | callNear
  | callFar
  | cbw
  | clc
  | cld
  | cli
  | cmc
  | cmp
  | cmps
  | cwd
  | daa
  | das
  | dec
  | div
  | esc
  | hlt
  | idiv
  | imul
  | input
  | inc
  | interrupt
  | interruptOnOverflow
  | iret
  | jumpIf
  | jmpNear
  | jmpFar
  | lahf
  | lea
  | lods
  | loopIf
  | loadFar
  | mov
  | movs
  | movSreg
  | mul
  | neg
  | nop
  | not
  | or
  | output
  | pop
  | popSreg
  | popf
  | push
  | pushSreg
  | pushf
  | rcl
  | rcr
  | retNear
  | retFar
  | rol
  | ror
  | sahf
  | salc
  | sar
  | sbb
  | scas
  | shl
  | shr
  | stc
  | std
  | sti
  | stos
  | sub
  | test
  | wait
  | xchg
  | xlat
  | xor
  | bound
  | ins
  | outs
  | enter
  | leave
  | pusha
  | popa
  | arpl
  | clts
  | lar
  | lsl
  | lgdt
  | sgdt
  | lidt
  | sidt
  | lldt
  | sldt
  | ltr
  | str
  | lmsw
  | smsw
  | verr
  | verw
  | loadall
  | bsf
  | bsr
  | bt
  | bts
  | btr
  | btc
  | shld
  | shrd
  | movsx
  | movzx
  | movCr
  | movDr
  | movTr
  | setIf
  | bswap
  | cmpxchg
  | xadd
  | invd
  | wbinvd
  | invlpg
  | moveIf
  | cpuid
  | rdtsc
  | cmpxchg8b
  | f2xm1
  | fabs
  | fadd
  | faddp
  | fbld
  | fbstp
  | fchs
  | fcom
  | fcomp
  | fcompp
  | fcos
  | fdecstp
  | fdiv
  | fdivp
  | fdivr
  | fdivrp
  | ffree
  | fiadd
  | ficom
  | ficomp
  | fidiv
  | fidivr
  | fild
  | fimul
  | fincstp
  | fist
  | fistp
  | fisub
  | fisubr
  | fld
  | fld1
  | fldcw
  | fldenv
  | fldl2e
  | fldl2t
  | fldlg2
  | fldln2
  | fldpi
  | fldz
  | fmul
  | fmulp
  | fnclex
  | fndisi
  | fneni
  | fninit
  | fnop
  | fnsave
  | fnstcw
  | fnstenv
  | fnstsw
  | fpatan
  | fprem
  | fprem1
  | fptan
  | frndint
  | frstor
  | fscale
  | fsetpm
  | fsin
  | fsincos
  | fsqrt
  | fst
  | fstp
  | fsub
  | fsubp
  | fsubr
  | fsubrp
  | ftst
  | fucom
  | fucomp
  | fucompp
  | fxam
  | fxch
  | fxtract
  | fyl2x
  | fyl2xp1
  deriving DecidableEq

namespace Operation

/-- The mnemonic, or only its stem where a condition, a segment or a width completes it. -/
def mnemonic : Operation → String
  | undefined => "<invalid>"
  | escape => "<escape>"
  | groupExtension => "<group extension>"
  | coprocessorExtension => "<x87 extension>"
  | segmentPrefix => "<segment prefix>"
  | repPrefix => "<rep prefix>"
  | repNePrefix => "<repne prefix>"
  | lockPrefix => "<lock prefix>"
  | operandSizePrefix => "<operand size prefix>"
  | addressSizePrefix => "<address size prefix>"
  | aaa => "aaa"
  | aad => "aad"
  | aam => "aam"
  | aas => "aas"
  | adc => "adc"
  | add => "add"
  | and => "and"
  | callNear => "call"
  | callFar => "call far"
  | cbw => "cbw"
  | clc => "clc"
  | cld => "cld"
  | cli => "cli"
  | cmc => "cmc"
  | cmp => "cmp"
  | cmps => "cmps"
  | cwd => "cwd"
  | daa => "daa"
  | das => "das"
  | dec => "dec"
  | div => "div"
  | esc => "esc"
  | hlt => "hlt"
  | idiv => "idiv"
  | imul => "imul"
  | input => "in"
  | inc => "inc"
  | interrupt => "int"
  | interruptOnOverflow => "into"
  | iret => "iret"
  | jumpIf => "j"
  | jmpNear => "jmp"
  | jmpFar => "jmp far"
  | lahf => "lahf"
  | lea => "lea"
  | lods => "lods"
  | loopIf => "loop"
  | loadFar => "l"
  | mov => "mov"
  | movs => "movs"
  | movSreg => "mov"
  | mul => "mul"
  | neg => "neg"
  | nop => "nop"
  | not => "not"
  | or => "or"
  | output => "out"
  | pop => "pop"
  | popSreg => "pop"
  | popf => "popf"
  | push => "push"
  | pushSreg => "push"
  | pushf => "pushf"
  | rcl => "rcl"
  | rcr => "rcr"
  | retNear => "ret"
  | retFar => "retf"
  | rol => "rol"
  | ror => "ror"
  | sahf => "sahf"
  | salc => "salc"
  | sar => "sar"
  | sbb => "sbb"
  | scas => "scas"
  | shl => "shl"
  | shr => "shr"
  | stc => "stc"
  | std => "std"
  | sti => "sti"
  | stos => "stos"
  | sub => "sub"
  | test => "test"
  | wait => "wait"
  | xchg => "xchg"
  | xlat => "xlat"
  | xor => "xor"
  | bound => "bound"
  | ins => "ins"
  | outs => "outs"
  | enter => "enter"
  | leave => "leave"
  | pusha => "pusha"
  | popa => "popa"
  | arpl => "arpl"
  | clts => "clts"
  | lar => "lar"
  | lsl => "lsl"
  | lgdt => "lgdt"
  | sgdt => "sgdt"
  | lidt => "lidt"
  | sidt => "sidt"
  | lldt => "lldt"
  | sldt => "sldt"
  | ltr => "ltr"
  | str => "str"
  | lmsw => "lmsw"
  | smsw => "smsw"
  | verr => "verr"
  | verw => "verw"
  | loadall => "loadall"
  | bsf => "bsf"
  | bsr => "bsr"
  | bt => "bt"
  | bts => "bts"
  | btr => "btr"
  | btc => "btc"
  | shld => "shld"
  | shrd => "shrd"
  | movsx => "movsx"
  | movzx => "movzx"
  | movCr => "mov"
  | movDr => "mov"
  | movTr => "mov"
  | setIf => "set"
  | bswap => "bswap"
  | cmpxchg => "cmpxchg"
  | xadd => "xadd"
  | invd => "invd"
  | wbinvd => "wbinvd"
  | invlpg => "invlpg"
  | moveIf => "cmov"
  | cpuid => "cpuid"
  | rdtsc => "rdtsc"
  | cmpxchg8b => "cmpxchg8b"
  | f2xm1 => "f2xm1"
  | fabs => "fabs"
  | fadd => "fadd"
  | faddp => "faddp"
  | fbld => "fbld"
  | fbstp => "fbstp"
  | fchs => "fchs"
  | fcom => "fcom"
  | fcomp => "fcomp"
  | fcompp => "fcompp"
  | fcos => "fcos"
  | fdecstp => "fdecstp"
  | fdiv => "fdiv"
  | fdivp => "fdivp"
  | fdivr => "fdivr"
  | fdivrp => "fdivrp"
  | ffree => "ffree"
  | fiadd => "fiadd"
  | ficom => "ficom"
  | ficomp => "ficomp"
  | fidiv => "fidiv"
  | fidivr => "fidivr"
  | fild => "fild"
  | fimul => "fimul"
  | fincstp => "fincstp"
  | fist => "fist"
  | fistp => "fistp"
  | fisub => "fisub"
  | fisubr => "fisubr"
  | fld => "fld"
  | fld1 => "fld1"
  | fldcw => "fldcw"
  | fldenv => "fldenv"
  | fldl2e => "fldl2e"
  | fldl2t => "fldl2t"
  | fldlg2 => "fldlg2"
  | fldln2 => "fldln2"
  | fldpi => "fldpi"
  | fldz => "fldz"
  | fmul => "fmul"
  | fmulp => "fmulp"
  | fnclex => "fnclex"
  | fndisi => "fndisi"
  | fneni => "fneni"
  | fninit => "fninit"
  | fnop => "fnop"
  | fnsave => "fnsave"
  | fnstcw => "fnstcw"
  | fnstenv => "fnstenv"
  | fnstsw => "fnstsw"
  | fpatan => "fpatan"
  | fprem => "fprem"
  | fprem1 => "fprem1"
  | fptan => "fptan"
  | frndint => "frndint"
  | frstor => "frstor"
  | fscale => "fscale"
  | fsetpm => "fsetpm"
  | fsin => "fsin"
  | fsincos => "fsincos"
  | fsqrt => "fsqrt"
  | fst => "fst"
  | fstp => "fstp"
  | fsub => "fsub"
  | fsubp => "fsubp"
  | fsubr => "fsubr"
  | fsubrp => "fsubrp"
  | ftst => "ftst"
  | fucom => "fucom"
  | fucomp => "fucomp"
  | fucompp => "fucompp"
  | fxam => "fxam"
  | fxch => "fxch"
  | fxtract => "fxtract"
  | fyl2x => "fyl2x"
  | fyl2xp1 => "fyl2xp1"

/-- A marker stands for a map row that is not an instruction. -/
def isMarker : Operation → Bool
  | undefined | escape | groupExtension | coprocessorExtension | segmentPrefix | repPrefix
  | repNePrefix | lockPrefix | operandSizePrefix | addressSizePrefix => true
  | _ => false

/-- A string instruction carries the width of its element in its mnemonic. -/
def isString : Operation → Bool
  | cmps | lods | movs | scas | stos | ins | outs => true
  | _ => false

/-- A string instruction that compares repeats while equal or while not equal. -/
def isStringCompare : Operation → Bool
  | cmps | scas => true
  | _ => false

end Operation

end X86Disassembly
