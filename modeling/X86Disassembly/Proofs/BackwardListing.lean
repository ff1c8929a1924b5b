import X86Disassembly.Proofs.BoundaryChain
import X86Disassembly.Proofs.ForwardListing
import X86Disassembly.Proofs.ImageListing

/-!
# Listing backwards

The instructions before an address of an image are found one by one, each up to the next, and their
bytes are read from the image again for each line. What is printed is nevertheless what a listing
forwards prints for the part of the image from the first of them up to the address.
-/

namespace X86Disassembly

namespace Image

variable {image : Image} {first next last : UInt32}

end Image

namespace CommandLine

variable {mode : Mode} {image : Image} {start next target : UInt32}

lemma decode_readRun_of_decodeAt {memory : Memory} {i : Instruction}
    (h : decodeAt mode memory start = .ok i) :
    1 ≤ i.length ∧ (memory.readRun start i.length).length = i.length ∧
      decode mode (memory.readRun start i.length) start = .ok i := by
  rw [decodeAt_eq_decode_readRun] at h
  obtain ⟨hlength, htake⟩ := decode_take_length h
  obtain ⟨read, rest, body, -, hread, hmax, rfl⟩ := decode_eq_ok_iff.mp h
  rw [memory.take_readRun start hmax] at hlength htake
  exact ⟨Decode.one_le_length_of_leads hread, hlength, htake⟩

section Report

variable {count : Nat}

section Inside

variable (hinside : ¬(target < image.origin ∨ image.limit < target))

include hinside

end Inside

end Report

end CommandLine

end X86Disassembly
