import X86Disassembly.ByteSource
import X86Disassembly.DecodeError
import X86Disassembly.LittleEndian

/-!
# Reading an instruction

A `Fetch` is a reading plan: a tree that asks for bytes and branches on them. It sees bytes only,
neither their address nor the source, so that all sources read alike. `run` plays a plan against a
source and is the one place where faults arise.
-/

namespace X86Disassembly

/-- A plan that reads a value. -/
inductive Fetch (α : Type)
  | done (value : α)
  /-- No instruction starts with the bytes read so far. -/
  | undefined
  /-- No instruction is as long as the bytes read so far promise. -/
  | overlong
  /-- Ask for the next bytes. -/
  | take (count : Nat) (next : Vector UInt8 count → Fetch α)

namespace Fetch

variable {α β σ : Type}

/-- Read a value, then follow the plan for it. -/
protected def bind : Fetch α → (α → Fetch β) → Fetch β
  | done a, f => f a
  | undefined, _ => undefined
  | overlong, _ => overlong
  | take count next, f => take count fun bytes => (next bytes).bind f

instance : Monad Fetch where
  pure := done
  bind := Fetch.bind

def byte : Fetch UInt8 :=
  take 1 fun bytes => done bytes[0]

/-- A number of `count` bytes, low byte first. -/
def unsigned (count : Nat) : Fetch UInt32 :=
  take count fun bytes => done (LittleEndian.zeroExtended bytes.toList)

/-- A number of `count` bytes in two's complement. -/
def signed (count : Nat) : Fetch UInt32 :=
  take count fun bytes => done (LittleEndian.signExtended bytes.toList)

end Fetch

/-- A source together with the bytes pulled from it since decoding began. -/
structure Tape (σ : Type) where
  source : σ
  taken : List UInt8

namespace Fetch

variable {α σ : Type}

/-- Play a plan against a source. A request that would pass the longest instruction is refused
before the source is asked. -/
def run [ByteSource σ] : Fetch α → Tape σ → Except Fault α × Tape σ
  | done a, t => (.ok a, t)
  | undefined, t => (.error (.undefined t.taken), t)
  | overlong, t => (.error (.tooLong maxLength), t)
  | take count next, t =>
    if maxLength < t.taken.length + count then
      (.error (.tooLong maxLength), t)
    else
      match ByteSource.fetch count t.source with
      | (none, s) =>
        (.error (.truncated (t.taken.length + count) t.taken.length), ⟨s, t.taken⟩)
      | (some bytes, s) => (next bytes).run ⟨s, t.taken ++ bytes.toList⟩

end Fetch

end X86Disassembly
