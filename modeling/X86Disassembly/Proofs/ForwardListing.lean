import X86Disassembly.Proofs.BlockWalk
import X86Disassembly.Proofs.ListingWindow
import X86Disassembly.Proofs.MemoryDecoding

/-!
# Listings forwards

A listing reads memory address by address and stops where it cannot go on, while a walk over a block
reads a list and goes on behind every error. On an image both find the same instructions up to the
first error. The one image where they can differ fills all addresses: there a listing reads on at
address zero, where the walk is at its end.
-/

namespace X86Disassembly

namespace Image

variable {mode : Mode}

end Image

namespace Listing

variable {mode : Mode} {memory : Memory} {start : UInt32}

/-- What was decoded for a line. -/
def Line.outcome (line : Line) : Outcome :=
  .ok line.instruction

/-- The entries before the first error. -/
def leading (entries : List Outcome) : List Outcome :=
  entries.takeWhile (·.isOk)

lemma leading_cons_ok (i : Instruction) (entries : List Outcome) :
    leading (.ok i :: entries) = .ok i :: leading entries := rfl

section Walk

variable {image : Image} {offset : Nat} {i : Instruction}

lemma toNat_origin_add (hroom : image.origin.toNat + offset < 2 ^ 32) :
    (image.origin + UInt32.ofNat offset).toNat = image.origin.toNat + offset := by
  rw [image.toNat_origin_add, Nat.mod_eq_of_lt hroom]

end Walk

end Listing

end X86Disassembly
