import X86Disassembly.Opcode.Group

/-!
# The second opcode map

The opcodes after an escape byte `0F`.
-/

namespace X86Disassembly.TwoByte

open Template

/-- The general registers by number, each with the row it selects. -/
def forRegisters (row : UInt8 → Entry) : List Entry :=
  [row 0, row 1, row 2, row 3, row 4, row 5, row 6, row 7]

/-- The sixteen encoded conditions, each with the row it selects. -/
def forConditions (row : Condition → Entry) : List Entry :=
  Condition.encoded.toList.map row

/-- Rows without an instruction. -/
def gap (count : Nat) : List Entry :=
  List.replicate count .undefined

def rows : List Entry :=
  List.flatten [
    -- 00
    [.group Group.op0F00, .group Group.op0F01, .op .lar [gv, ew], .op .lsl [gv, ew],
      .undefined, .op .loadall [], .op .clts [], .undefined,
      .op .invd [], .op .wbinvd []],
    gap 6,
    -- 10
    gap 16,
    -- 20
    [.op .movCr [rd, cd], .op .movDr [rd, dd], .op .movCr [cd, rd], .op .movDr [dd, rd],
      .op .movTr [rd, td], .undefined, .op .movTr [td, rd]],
    gap 9,
    -- 30
    [.undefined, .op .rdtsc []],
    gap 14,
    -- 40
    forConditions fun c => .op .moveIf [cc c, gv, ev],
    -- 50, 60, 70
    gap 48,
    -- 80
    forConditions fun c => .op .jumpIf [cc c, jv],
    -- 90
    forConditions fun c => .op .setIf [cc c, eb],
    -- A0
    [.op .pushSreg [sreg .fs], .op .popSreg [sreg .fs], .op .cpuid [], .op .bt [ev, gv],
      .op .shld [ev, gv, ib], .op .shld [ev, gv, cl], .undefined, .undefined,
      .op .pushSreg [sreg .gs], .op .popSreg [sreg .gs], .undefined, .op .bts [ev, gv],
      .op .shrd [ev, gv, ib], .op .shrd [ev, gv, cl], .undefined, .op .imul [gv, ev]],
    -- B0
    [.op .cmpxchg [eb, gb], .op .cmpxchg [ev, gv], .op .loadFar [sreg .ss, gv, m],
      .op .btr [ev, gv], .op .loadFar [sreg .fs, gv, m], .op .loadFar [sreg .gs, gv, m],
      .op .movzx [gv, eb], .op .movzx [gv, ew],
      .undefined, .undefined, .group Group.op0FBA, .op .btc [ev, gv],
      .op .bsf [gv, ev], .op .bsr [gv, ev], .op .movsx [gv, eb], .op .movsx [gv, ew]],
    -- C0
    [.op .xadd [eb, gb], .op .xadd [ev, gv], .undefined, .undefined,
      .undefined, .undefined, .undefined, .group Group.op0FC7],
    forRegisters fun r => .op .bswap [regv r],
    -- D0, E0, F0
    gap 48]

set_option maxRecDepth 2000 in
/-- The map with one row for each byte. -/
def map : Vector Entry 256 :=
  ⟨⟨rows⟩, rfl⟩

end X86Disassembly.TwoByte
