import X86Disassembly.Opcode.Coprocessor
import X86Disassembly.Opcode.Group

/-!
# The first opcode maps

One map for the 386 and its successors, and one for the 8086 that replaces the rows where the older
processor decodes differently: no escape, no size or extra segment prefixes, no later instructions
and no coprocessor forms.
-/

namespace X86Disassembly.OneByte

open Template

/-- The six forms of an arithmetic operation. -/
def arithmetic (o : Operation) : List Lead :=
  [.op o [eb, gb], .op o [ev, gv], .op o [gb, eb], .op o [gv, ev], .op o [al, ib],
    .op o [eax, iv]]

/-- The general registers by number, each with the row it selects. -/
def forRegisters (row : UInt8 → Lead) : List Lead :=
  [row 0, row 1, row 2, row 3, row 4, row 5, row 6, row 7]

/-- The sixteen encoded conditions, each with the short jump on it. -/
def shortJumps : List Lead :=
  Condition.encoded.toList.map fun c => .op .jumpIf [cc c, jb]

def rows : List Lead :=
  List.flatten [
    -- 00
    arithmetic .add,
    [.op .pushSreg [sreg .es], .op .popSreg [sreg .es]],
    arithmetic .or,
    [.op .pushSreg [sreg .cs], .escape],
    -- 10
    arithmetic .adc,
    [.op .pushSreg [sreg .ss], .op .popSreg [sreg .ss]],
    arithmetic .sbb,
    [.op .pushSreg [sreg .ds], .op .popSreg [sreg .ds]],
    -- 20
    arithmetic .and,
    [.modifier (.segment .es), .op .daa []],
    arithmetic .sub,
    [.modifier (.segment .cs), .op .das []],
    -- 30
    arithmetic .xor,
    [.modifier (.segment .ss), .op .aaa []],
    arithmetic .cmp,
    [.modifier (.segment .ds), .op .aas []],
    -- 40
    forRegisters fun r => .op .inc [regv r],
    forRegisters fun r => .op .dec [regv r],
    -- 50
    forRegisters fun r => .op .push [regv r],
    forRegisters fun r => .op .pop [regv r],
    -- 60
    [.op .pusha [], .op .popa [], .op .bound [gv, m], .op .arpl [ew, gw],
      .modifier (.segment .fs), .modifier (.segment .gs),
      .modifier .operandSize, .modifier .addressSize,
      .op .push [iv], .op .imul [gv, ev, iv], .op .push [ib], .op .imul [gv, ev, ib],
      .op .ins [yb, dx], .op .ins [yv, dx], .op .outs [dx, xb], .op .outs [dx, xv]],
    -- 70
    shortJumps,
    -- 80
    [.group Group.op80, .group Group.op81, .group Group.op82, .group Group.op83,
      .op .test [eb, gb], .op .test [ev, gv], .op .xchg [eb, gb], .op .xchg [ev, gv],
      .op .mov [eb, gb], .op .mov [ev, gv], .op .mov [gb, eb], .op .mov [gv, ev],
      .op .movSreg [ew, sw], .op .lea [gv, m], .op .movSreg [sw, ew], .op .pop [ev]],
    -- 90
    [.op .nop [], .op .xchg [eax, regv 1], .op .xchg [eax, regv 2], .op .xchg [eax, regv 3],
      .op .xchg [eax, regv 4], .op .xchg [eax, regv 5], .op .xchg [eax, regv 6],
      .op .xchg [eax, regv 7],
      .op .cbw [], .op .cwd [], .op .callFar [ap], .op .wait [], .op .pushf [], .op .popf [],
      .op .sahf [], .op .lahf []],
    -- A0
    [.op .mov [al, ob], .op .mov [eax, ov], .op .mov [ob, al], .op .mov [ov, eax],
      .op .movs [yb, xb], .op .movs [yv, xv], .op .cmps [xb, yb], .op .cmps [xv, yv],
      .op .test [al, ib], .op .test [eax, iv], .op .stos [yb, al], .op .stos [yv, eax],
      .op .lods [al, xb], .op .lods [eax, xv], .op .scas [al, yb], .op .scas [eax, yv]],
    -- B0
    forRegisters fun r => .op .mov [reg8 r, ib],
    forRegisters fun r => .op .mov [regv r, iv],
    -- C0
    [.group Group.opC0, .group Group.opC1, .op .retNear [iw], .op .retNear [],
      .op .loadFar [sreg .es, gv, m], .op .loadFar [sreg .ds, gv, m],
      .op .mov [eb, ib], .op .mov [ev, iv],
      .op .enter [iw, ib2], .op .leave [], .op .retFar [iw], .op .retFar [],
      .op .interrupt [cb 3], .op .interrupt [ib], .op .interruptOnOverflow [], .op .iret []],
    -- D0
    [.group Group.opD0, .group Group.opD1, .group Group.opD2, .group Group.opD3,
      .op .aam [ib], .op .aad [ib], .op .salc [], .op .xlat [],
      .coprocessor EscapeGroup.opD8, .coprocessor EscapeGroup.opD9,
      .coprocessor EscapeGroup.opDA, .coprocessor EscapeGroup.opDB,
      .coprocessor EscapeGroup.opDC, .coprocessor EscapeGroup.opDD,
      .coprocessor EscapeGroup.opDE, .coprocessor EscapeGroup.opDF],
    -- E0
    [.op .loopIf [cc .notEqual, jb], .op .loopIf [cc .equal, jb], .op .loopIf [cc .always, jb],
      .op .jumpIf [cc .cxZero, jb],
      .op .input [al, ib], .op .input [eax, ib], .op .output [ib, al], .op .output [ib, eax],
      .op .callNear [jv], .op .jmpNear [jv], .op .jmpFar [ap], .op .jmpNear [jb],
      .op .input [al, dx], .op .input [eax, dx], .op .output [dx, al], .op .output [dx, eax]],
    -- F0
    [.modifier .lock, .undefined, .modifier (.repetition .repne), .modifier (.repetition .rep),
      .op .hlt [], .op .cmc [], .group Group.opF6, .group Group.opF7,
      .op .clc [], .op .stc [], .op .cli [], .op .sti [], .op .cld [], .op .std [],
      .group Group.opFE, .group Group.opFF]]

set_option maxRecDepth 2000 in
/-- The map of the 386, with one row for each byte. -/
def map386 : Vector Lead 256 :=
  ⟨⟨rows⟩, rfl⟩

/-- The rows in which the 8086 differs: `0F` is an ordinary opcode, `60` to `6F` repeat the short
jumps, four more opcodes return, the coprocessor takes any operand at `D8` to `DF`, and `F1` is
another lock. -/
def rows8086 : List (Fin 256 × Lead) :=
  List.flatten [
    [(0x0F, .op .popSreg [sreg .cs])],
    List.zip [0x60, 0x61, 0x62, 0x63, 0x64, 0x65, 0x66, 0x67, 0x68, 0x69, 0x6A, 0x6B, 0x6C, 0x6D,
      0x6E, 0x6F] shortJumps,
    [(0xC0, .op .retNear [iw]), (0xC1, .op .retNear []), (0xC8, .op .retFar [iw]),
      (0xC9, .op .retFar [])],
    [0xD8, 0xD9, 0xDA, 0xDB, 0xDC, 0xDD, 0xDE, 0xDF].map (·, .op .esc [eb]),
    [(0xF1, .modifier .lock)]]

/-- The map of the 8086. -/
def map8086 : Vector Lead 256 :=
  rows8086.foldl (fun map row => map.set row.1 row.2) map386

end X86Disassembly.OneByte
