import Mathlib.Data.UInt
import X86Disassembly.Proofs.MemoryDecoding

/-!
# The addresses of an image

An address can be read where the image has a byte for it. Whether an address lies inside the image
is decided by the limit, which is held in 32 bits: an image that reaches the last address has its
limit there, so that this one address can be read and is not inside. Moving an image moves what can
be read.
-/

namespace X86Disassembly.Image

variable (image : Image) (a : UInt32)

lemma byteAt_eq_some_iff (b : UInt8) : image.byteAt a = some b ↔
    image.origin.toNat ≤ a.toNat ∧ image.bytes[a.toNat - image.origin.toNat]? = some b := by
  rw [byteAt]
  split
  · rename_i hle
    rw [UInt32.toNat_sub_of_le _ _ hle]
    exact (and_iff_right (UInt32.le_iff_toNat_le.mp hle)).symm
  · rename_i hlt
    exact iff_of_false (Option.some_ne_none b).symm fun h => hlt (UInt32.le_iff_toNat_le.mpr h.1)

lemma exists_byteAt_iff : (∃ b, image.byteAt a = some b) ↔
    image.origin.toNat ≤ a.toNat ∧ a.toNat < image.origin.toNat + image.bytes.size := by
  simp only [byteAt_eq_some_iff]
  constructor
  · rintro ⟨b, hle, hb⟩
    have hlt := (Array.getElem?_eq_some_iff.mp hb).1
    exact ⟨hle, by omega⟩
  · rintro ⟨hle, hlt⟩
    exact ⟨_, hle, Array.getElem?_eq_getElem (by omega)⟩

lemma toNat_limit : image.limit.toNat =
    min (image.origin.toNat + image.bytes.size) (UInt32.size - 1) := by
  have hlt : min (image.origin.toNat + image.bytes.size) (UInt32.size - 1) < 2 ^ 32 :=
    Nat.lt_of_le_of_lt (Nat.min_le_right _ _) (by decide)
  rw [limit, UInt32.toNat_ofNat', Nat.mod_eq_of_lt hlt]

lemma contains_eq_true_iff : image.contains a = true ↔
    image.origin.toNat ≤ a.toNat ∧ a.toNat < image.limit.toNat := by
  rw [contains, Bool.and_eq_true, decide_eq_true_eq, decide_eq_true_eq, UInt32.le_iff_toNat_le,
    UInt32.lt_iff_toNat_lt]

/-- An address is inside an image exactly if a byte can be read there, but for the last address,
which is inside no image. A byte can be read at the addresses from the origin on, as many as there
are bytes, and is the one at the distance of the address from the origin. -/
theorem contains_iff_readable :
    (image.contains a = true ↔ (∃ b, image.byteAt a = some b) ∧ a ≠ 0xFFFFFFFF) ∧
    ((∃ b, image.byteAt a = some b) ↔
      image.origin.toNat ≤ a.toNat ∧ a.toNat < image.origin.toNat + image.bytes.size) ∧
    ∀ b, image.byteAt a = some b ↔
      image.origin.toNat ≤ a.toNat ∧ image.bytes[a.toNat - image.origin.toNat]? = some b := by
  refine ⟨?_, image.exists_byteAt_iff a, image.byteAt_eq_some_iff a⟩
  have hlast : a ≠ 0xFFFFFFFF ↔ a.toNat ≠ UInt32.size - 1 := not_congr UInt32.toNat_inj.symm
  have ha : a.toNat < UInt32.size := a.toNat_lt
  rw [contains_eq_true_iff, exists_byteAt_iff, toNat_limit, hlast]
  omega

/-- The only byte of an image at the last address can be read there, and the address does not lie
inside the image. -/
theorem contains_last :
    let image : Image := ⟨0xFFFFFFFF, #[0x90]⟩
    image.byteAt 0xFFFFFFFF = some 0x90 ∧ image.contains 0xFFFFFFFF = false := by
  decide

/-- The same bytes at another place. The origin is taken on a ring of 2 ^ 32 addresses. -/
def movedBy (image : Image) (d : UInt32) : Image where
  origin := image.origin + d
  bytes := image.bytes

lemma byteAt_eq_getElem? {image : Image} (hfit : image.origin.toNat + image.bytes.size ≤ 2 ^ 32)
    (a : UInt32) : image.byteAt a = image.bytes[(a - image.origin).toNat]? := by
  rw [byteAt]
  split
  · rfl
  · rename_i hlt
    have hlt : a.toNat < image.origin.toNat := by
      rwa [UInt32.le_iff_toNat_le, Nat.not_le] at hlt
    have horigin : image.origin.toNat < 2 ^ 32 := image.origin.toNat_lt
    rw [eq_comm, Array.getElem?_eq_none_iff, UInt32.toNat_sub]
    omega

lemma byteAt_movedBy {image : Image} {d : UInt32}
    (hfit : image.origin.toNat + image.bytes.size ≤ 2 ^ 32)
    (hmoved : (image.movedBy d).origin.toNat + image.bytes.size ≤ 2 ^ 32) (a : UInt32) :
    (image.movedBy d).memory.byteAt (a + d) = image.memory.byteAt a := by
  change (image.movedBy d).byteAt (a + d) = image.byteAt a
  rw [byteAt_eq_getElem? hfit, byteAt_eq_getElem? hmoved, movedBy, add_sub_add_right_eq_sub]

end X86Disassembly.Image
