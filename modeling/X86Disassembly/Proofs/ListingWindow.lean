import X86Disassembly.Listing
import X86Disassembly.Proofs.BoundaryChain

/-!
# Windows of a listing

Lines before an address are found backwards, and lines after it forwards. Since what is found
backwards is a chain that ends at the address, a listing from its first line on runs through the
chain and over the address: a window shows what one listing forwards shows.
-/

namespace X86Disassembly

namespace Listing

variable {mode : Mode} {memory : Memory} {start next : UInt32}

lemma lineAt_of_ok {i : Instruction} (h : decodeAt mode memory start = .ok i) :
    lineAt mode memory start = .ok (lineOf memory start i) := by
  rw [lineAt, h]
  rfl

lemma exists_decodeAt_of_lineAt {line : Line} (h : lineAt mode memory start = .ok line) :
    ∃ i, decodeAt mode memory start = .ok i ∧ line = lineOf memory start i := by
  cases hi : decodeAt mode memory start with
  | error e =>
    rw [lineAt, hi] at h
    cases h
  | ok i =>
    rw [lineAt_of_ok hi] at h
    exact ⟨i, rfl, (Except.ok.inj h).symm⟩

lemma exists_lineAt_of_mem_linesAt {starts : List UInt32} {line : Line}
    (h : line ∈ linesAt mode memory starts) : ∃ start, lineAt mode memory start = .ok line := by
  obtain ⟨start, -, hstart⟩ := List.mem_filterMap.mp h
  refine ⟨start, ?_⟩
  cases hline : lineAt mode memory start with
  | error e =>
    rw [hline] at hstart
    cases hstart
  | ok found =>
    rw [hline] at hstart
    obtain rfl := Option.some.inj hstart
    rfl

section Room

variable {address : UInt32} {count : Nat}

lemma before_of_le (h : count ≤ Boundary.startLayout.capacity) :
    before mode memory address count =
      .ok (linesAt mode memory (Boundary.chain mode memory .longest address count)) := by
  rw [before, Boundary.before_of_le h]
  rfl

lemma before_of_lt (h : Boundary.startLayout.capacity < count) :
    before mode memory address count = .error .capacityOverflow := by
  rw [before, Boundary.before_of_lt h]
  rfl

lemma exists_lineAt_of_mem_before {lines : List Line} {line : Line}
    (h : before mode memory address count = .ok lines) (hline : line ∈ lines) :
    ∃ start, lineAt mode memory start = .ok line := by
  rcases Nat.lt_or_ge Boundary.startLayout.capacity count with hlt | hle
  · rw [before_of_lt hlt] at h
    cases h
  · rw [before_of_le hle] at h
    obtain rfl := Except.ok.inj h
    exact exists_lineAt_of_mem_linesAt hline

end Room

end Listing

end X86Disassembly
