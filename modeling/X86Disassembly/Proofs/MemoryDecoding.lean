import X86Disassembly.Proofs.Reading

/-!
# Decoding from memory

A memory cursor reads byte by byte and goes on at address zero after the last address, while a
cursor over a list takes a request whole or not at all. Both give the same outcome: decoding at an
address of memory is decoding the longest run of readable bytes that starts there.
-/

namespace X86Disassembly

namespace Memory

/-- The bytes are those readable from an address on, as many as there are before the first gap and
within the limit. Addresses are taken on a ring of 2 ^ 32. -/
structure IsLongestRun (m : Memory) (a : UInt32) (limit : Nat) (w : List UInt8) : Prop where
  readable : ∀ k b, w[k]? = some b → m.byteAt (a + UInt32.ofNat k) = some b
  length_le : w.length ≤ limit
  gap : w.length < limit → m.byteAt (a + UInt32.ofNat w.length) = none

lemma add_ofNat_succ (a : UInt32) (k : Nat) :
    a + UInt32.ofNat (k + 1) = a + 1 + UInt32.ofNat k := by
  rw [UInt32.ofNat_add, UInt32.add_comm (UInt32.ofNat k), ← UInt32.add_assoc]
  rfl

lemma length_readRun_le (m : Memory) (a : UInt32) (n : Nat) : (m.readRun a n).length ≤ n := by
  induction n generalizing a with
  | zero => simp [readRun]
  | succ n ih =>
    rw [readRun]
    cases m.byteAt a with
    | none => simp
    | some b => simpa using ih (a + 1)

lemma readRun_add (m : Memory) (a : UInt32) (k n : Nat) :
    m.readRun a (k + n) =
      if (m.readRun a k).length = k then m.readRun a k ++ m.readRun (a + UInt32.ofNat k) n
      else m.readRun a k := by
  induction k generalizing a with
  | zero => simp [readRun]
  | succ k ih =>
    have hsucc : k + 1 + n = k + n + 1 := by omega
    rw [hsucc, readRun, readRun, add_ofNat_succ]
    cases m.byteAt a with
    | none => simp
    | some b =>
      simp only [ih, List.length_cons, Nat.add_right_cancel_iff]
      by_cases hk : (m.readRun (a + 1) k).length = k
      · rw [if_pos hk, if_pos hk, List.cons_append]
      · rw [if_neg hk, if_neg hk]

lemma isLongestRun_readRun (m : Memory) (a : UInt32) (n : Nat) :
    m.IsLongestRun a n (m.readRun a n) := by
  refine ⟨?_, m.length_readRun_le a n, ?_⟩
  · intro k b
    induction n generalizing a k with
    | zero => simp [readRun]
    | succ n ih =>
      rw [readRun]
      cases hb : m.byteAt a with
      | none => simp
      | some c =>
        cases k with
        | zero =>
          intro h
          have hzero : a + UInt32.ofNat 0 = a := UInt32.add_zero a
          rw [hzero, hb]
          simpa using h
        | succ k =>
          intro h
          rw [add_ofNat_succ]
          exact ih (a + 1) k (by simpa using h)
  · induction n generalizing a with
    | zero => exact fun h => absurd h (Nat.not_lt_zero _)
    | succ n ih =>
      rw [readRun]
      cases hb : m.byteAt a with
      | none =>
        intro _
        have hzero : a + UInt32.ofNat 0 = a := UInt32.add_zero a
        rw [List.length_nil, hzero, hb]
      | some c =>
        intro h
        rw [List.length_cons, add_ofNat_succ]
        exact ih (a + 1) (Nat.lt_of_succ_lt_succ h)

lemma IsLongestRun.unique {m : Memory} {a : UInt32} {n : Nat} {v w : List UInt8}
    (hv : m.IsLongestRun a n v) (hw : m.IsLongestRun a n w) : v = w := by
  have hlen : ∀ {v w : List UInt8}, m.IsLongestRun a n v → m.IsLongestRun a n w →
      w.length ≤ v.length := by
    intro v w hv hw
    by_contra hlt
    have hle := hw.length_le
    have hgap := hv.gap (by omega)
    have hb := hw.readable v.length _ (List.getElem?_eq_getElem (by omega))
    rw [hgap] at hb
    cases hb
  apply List.ext_getElem (Nat.le_antisymm (hlen hw hv) (hlen hv hw))
  intro k hk hk'
  have hv' := hv.readable k _ (List.getElem?_eq_getElem hk)
  have hw' := hw.readable k _ (List.getElem?_eq_getElem hk')
  rw [hv'] at hw'
  exact Option.some.inj hw'

lemma take_readRun (m : Memory) (a : UInt32) {k n : Nat} (h : k ≤ n) :
    (m.readRun a n).take k = m.readRun a k := by
  obtain ⟨n, rfl⟩ := Nat.exists_eq_add_of_le h
  have hle := m.length_readRun_le a k
  rw [readRun_add]
  split
  · rename_i hfull
    rw [List.take_append_of_le_length (by omega), List.take_of_length_le (by omega)]
  · exact List.take_of_length_le hle

lemma drop_readRun {m : Memory} {a : UInt32} {k n : Nat} (h : (m.readRun a k).length = k)
    (hle : k ≤ n) : (m.readRun a n).drop k = m.readRun (a + UInt32.ofNat k) (n - k) := by
  obtain ⟨n, rfl⟩ := Nat.exists_eq_add_of_le hle
  rw [readRun_add, if_pos h, Nat.add_sub_cancel_left]
  exact List.drop_left' h

lemma byteAt_of_readRun_eq {m : Memory} {a : UInt32} {bytes : List UInt8}
    (h : m.readRun a bytes.length = bytes) {j : Nat} (hj : j < bytes.length) :
    m.byteAt (a + UInt32.ofNat j) = bytes[j]? := by
  have hreadable := (m.isLongestRun_readRun a bytes.length).readable j bytes[j]
  rw [h, List.getElem?_eq_getElem hj] at hreadable
  rw [hreadable rfl, List.getElem?_eq_getElem hj]

end Memory

namespace MemoryCursor

lemma fetch_of_readRun_eq {m : Memory} {a : UInt32} {count : Nat} (bytes : Vector UInt8 count)
    (h : m.readRun a count = bytes.toList) :
    ByteSource.fetch count (⟨m, a⟩ : MemoryCursor) =
      (some bytes, ⟨m, a + UInt32.ofNat count⟩) := by
  change MemoryCursor.fetch count _ = _
  induction count generalizing a with
  | zero =>
    have hbytes : bytes = #v[] := by simp
    have hzero : a + UInt32.ofNat 0 = a := UInt32.add_zero a
    rw [MemoryCursor.fetch, hbytes, hzero]
  | succ count ih =>
    rw [Memory.readRun] at h
    rw [MemoryCursor.fetch]
    cases hb : m.byteAt a with
    | none =>
      rw [hb] at h
      have hlen := congrArg List.length h
      simp at hlen
    | some b =>
      rw [hb] at h
      dsimp only at h ⊢
      have hlen : (m.readRun (a + 1) count).length = count := by
        have hlen := congrArg List.length h
        simpa using hlen
      have hrest := ih (a := a + 1) ⟨⟨m.readRun (a + 1) count⟩, hlen⟩ rfl
      rw [hrest, Memory.add_ofNat_succ]
      have hbytes : bytes = ⟨⟨b :: m.readRun (a + 1) count⟩, by simpa using hlen⟩ := by
        apply Vector.toList_inj.mp
        rw [← h]
        rfl
      rw [hbytes]
      rfl

lemma fetch_of_length_lt {m : Memory} {a : UInt32} {count : Nat}
    (h : (m.readRun a count).length < count) :
    ByteSource.fetch count (⟨m, a⟩ : MemoryCursor) =
      (none, ⟨m, a + UInt32.ofNat (m.readRun a count).length⟩) := by
  change MemoryCursor.fetch count _ = _
  induction count generalizing a with
  | zero => exact absurd h (Nat.not_lt_zero _)
  | succ count ih =>
    rw [Memory.readRun] at h ⊢
    rw [MemoryCursor.fetch]
    cases hb : m.byteAt a with
    | none =>
      have hzero : a + UInt32.ofNat 0 = a := UInt32.add_zero a
      dsimp only
      rw [List.length_nil, hzero]
    | some b =>
      rw [hb] at h
      dsimp only at h ⊢
      rw [List.length_cons] at h ⊢
      rw [ih (Nat.lt_of_succ_lt_succ h), Memory.add_ofNat_succ]

end MemoryCursor

/-- A plan reads memory like the list of the bytes that can be read there. Only as many of them
matter as an instruction can still take. -/
lemma Fetch.run_memoryCursor {α : Type} (plan : Fetch α) (m : Memory) (a : UInt32)
    (taken : List UInt8) (position : Nat) (start : taken.length ≤ maxLength) :
    let onMemory := plan.run (⟨⟨m, a⟩, taken⟩ : Tape MemoryCursor)
    let onBytes := plan.run
      (⟨⟨position, m.readRun a (maxLength - taken.length)⟩, taken⟩ : Tape ByteCursor)
    onMemory.1 = onBytes.1 ∧ onMemory.2.taken = onBytes.2.taken := by
  dsimp only
  induction plan generalizing a taken position with
  | done value => exact ⟨rfl, rfl⟩
  | undefined => exact ⟨rfl, rfl⟩
  | overlong => exact ⟨rfl, rfl⟩
  | take count next ih =>
    by_cases hroom : maxLength < taken.length + count
    · rw [Fetch.run, Fetch.run, if_pos hroom, if_pos hroom]
      exact ⟨rfl, rfl⟩
    · rw [Fetch.run, Fetch.run, if_neg hroom, if_neg hroom]
      have hsplit : maxLength - taken.length = count + (maxLength - (taken.length + count)) := by
        omega
      rw [hsplit, Memory.readRun_add]
      have hle := m.length_readRun_le a count
      by_cases hfull : (m.readRun a count).length = count
      · obtain ⟨bytes, hbytes⟩ : ∃ bytes : Vector UInt8 count, m.readRun a count = bytes.toList :=
          ⟨⟨⟨m.readRun a count⟩, hfull⟩, rfl⟩
        have htaken : (taken ++ bytes.toList).length = taken.length + count := by simp
        rw [if_pos hfull, MemoryCursor.fetch_of_readRun_eq bytes hbytes, hbytes,
          ByteCursor.fetch_append]
        dsimp only
        rw [← htaken]
        exact ih bytes _ (taken ++ bytes.toList) _ (by omega)
      · rw [if_neg hfull, MemoryCursor.fetch_of_length_lt (by omega),
          ByteCursor.fetch_short _ (by dsimp only; omega)]
        exact ⟨rfl, rfl⟩

lemma decodeAt_eq_decode_readRun (mode : Mode) (m : Memory) (a : UInt32) :
    decodeAt mode m a = decode mode (m.readRun a maxLength) a := by
  obtain ⟨hresult, htaken⟩ := (Decode.readBody mode).run_memoryCursor m a [] 0 (Nat.zero_le _)
  rw [List.length_nil, Nat.sub_zero] at hresult htaken
  rw [decodeAt, decode, decodeFrom, decodeFrom]
  generalize (Decode.readBody mode).run (⟨⟨m, a⟩, []⟩ : Tape MemoryCursor) = onMemory at *
  generalize (Decode.readBody mode).run (⟨⟨0, m.readRun a maxLength⟩, []⟩ : Tape ByteCursor) =
    onBytes at *
  obtain ⟨result, tape⟩ := onMemory
  obtain ⟨result', tape'⟩ := onBytes
  dsimp only at hresult htaken
  subst hresult
  cases result with
  | ok body =>
    dsimp only
    rw [htaken]
  | error fault => rfl

lemma decodeAt_of_isLongestRun {mode : Mode} {memory : Memory} {address : UInt32} {w : List UInt8}
    (hw : memory.IsLongestRun address maxLength w) :
    decodeAt mode memory address = decode mode w address := by
  rw [decodeAt_eq_decode_readRun, hw.unique (memory.isLongestRun_readRun address maxLength)]

namespace Image

lemma toNat_origin_add (i : Image) (n : Nat) :
    (i.origin + UInt32.ofNat n).toNat = (i.origin.toNat + n) % 2 ^ 32 := by
  rw [UInt32.toNat_add, UInt32.toNat_ofNat', Nat.add_mod_mod]

lemma byteAt_origin_add (i : Image) {n : Nat} (h : i.origin.toNat + n < 2 ^ 32) :
    i.byteAt (i.origin + UInt32.ofNat n) = i.bytes[n]? := by
  have hsum := i.toNat_origin_add n
  rw [Nat.mod_eq_of_lt h] at hsum
  have hle : i.origin ≤ i.origin + UInt32.ofNat n := by
    rw [UInt32.le_iff_toNat_le, hsum]
    exact Nat.le_add_right _ _
  rw [byteAt, if_pos hle, UInt32.toNat_sub_of_le _ _ hle, hsum, Nat.add_sub_cancel_left]

lemma byteAt_origin_add_eq_none (i : Image) {n : Nat} (h : i.origin.toNat + n = 2 ^ 32)
    (ho : i.origin ≠ 0) : i.byteAt (i.origin + UInt32.ofNat n) = none := by
  have hsum := i.toNat_origin_add n
  rw [h, Nat.mod_self] at hsum
  have hle : ¬i.origin ≤ i.origin + UInt32.ofNat n := by
    rw [UInt32.le_iff_toNat_le, hsum]
    intro hz
    exact ho (UInt32.toNat_inj.mp (Nat.le_zero.mp hz))
  rw [byteAt, if_neg hle]

/-- The bytes from an offset on, up to the end of the image or of the addresses. -/
def tail (i : Image) (k : Nat) : List UInt8 :=
  (i.bytes.extract k (min i.bytes.size (2 ^ 32 - i.origin.toNat))).toList

lemma length_tail (i : Image) (k : Nat) :
    (i.tail k).length = min i.bytes.size (2 ^ 32 - i.origin.toNat) - k := by
  rw [tail, Array.length_toList, Array.size_extract]
  omega

lemma getElem?_tail (i : Image) {k n : Nat} (h : n < (i.tail k).length) :
    (i.tail k)[n]? = i.bytes[k + n]? := by
  rw [length_tail] at h
  rw [tail, Array.getElem?_toList, Array.getElem?_extract, if_pos (by omega)]

lemma isLongestRun_tail (i : Image) {k : Nat} (hk : i.origin.toNat + k < 2 ^ 32)
    (hfit : ¬(i.origin = 0 ∧ 2 ^ 32 ≤ i.bytes.size)) (limit : Nat) :
    i.memory.IsLongestRun (i.origin + UInt32.ofNat k) limit ((i.tail k).take limit) := by
  have hlen := i.length_tail k
  have haddr : ∀ n,
      i.origin + UInt32.ofNat k + UInt32.ofNat n = i.origin + UInt32.ofNat (k + n) := by
    intro n
    rw [UInt32.add_assoc, ← UInt32.ofNat_add]
  refine ⟨?_, List.length_take_le _ _, ?_⟩
  · intro n b hb
    have hn : n < ((i.tail k).take limit).length := (List.getElem?_eq_some_iff.mp hb).1
    rw [List.length_take] at hn
    rw [List.getElem?_take_of_lt (by omega), i.getElem?_tail (by omega)] at hb
    change i.byteAt _ = _
    rw [haddr, i.byteAt_origin_add (by omega), hb]
  · intro hlt
    rw [List.length_take] at hlt ⊢
    rw [Nat.min_eq_right (by omega)]
    change i.byteAt _ = _
    rw [haddr]
    by_cases hend : i.origin.toNat + (k + (i.tail k).length) < 2 ^ 32
    · rw [i.byteAt_origin_add hend]
      exact Array.getElem?_eq_none (by omega)
    · have horigin : i.origin ≠ 0 := by
        intro hzero
        have hzero' : i.origin.toNat = 0 := by rw [hzero]; rfl
        exact hfit ⟨hzero, by omega⟩
      exact i.byteAt_origin_add_eq_none (by omega) horigin

lemma isLongestRun_tail_append (i : Image) {k : Nat} (hk : k < 2 ^ 32) (ho : i.origin = 0)
    (hfull : 2 ^ 32 ≤ i.bytes.size) {limit : Nat} (hlimit : limit ≤ 2 ^ 32) :
    i.memory.IsLongestRun (i.origin + UInt32.ofNat k) limit
      ((i.tail k ++ i.bytes.toList).take limit) := by
  have hzero : i.origin.toNat = 0 := by rw [ho]; rfl
  have hlen : (i.tail k).length = 2 ^ 32 - k := by
    rw [i.length_tail, hzero]
    omega
  have htake : ((i.tail k ++ i.bytes.toList).take limit).length = limit := by
    rw [List.length_take, List.length_append, i.bytes.length_toList]
    omega
  refine ⟨?_, Nat.le_of_eq htake, fun hlt => absurd hlt (by omega)⟩
  intro n b hb
  have hn : n < limit := by
    rw [← htake]
    exact (List.getElem?_eq_some_iff.mp hb).1
  rw [List.getElem?_take_of_lt hn] at hb
  change i.byteAt _ = _
  rw [UInt32.add_assoc, ← UInt32.ofNat_add]
  by_cases hwrap : n < 2 ^ 32 - k
  · rw [List.getElem?_append_left (by omega), i.getElem?_tail (by omega)] at hb
    rw [i.byteAt_origin_add (by omega), hb]
  · have hback : UInt32.ofNat (k + n) = UInt32.ofNat (k + n - 2 ^ 32) := by
      apply UInt32.toNat_inj.mp
      rw [UInt32.toNat_ofNat', UInt32.toNat_ofNat']
      omega
    rw [List.getElem?_append_right (by omega), hlen, Array.getElem?_toList] at hb
    have hindex : n - (2 ^ 32 - k) = k + n - 2 ^ 32 := by omega
    rw [hindex] at hb
    rw [hback, i.byteAt_origin_add (by omega), hb]

/-- An image that holds the same byte at all addresses. -/
def filled (b : UInt8) : Image where
  origin := 0
  bytes := Array.replicate (2 ^ 32) b

lemma size_filled (b : UInt8) : (filled b).bytes.size = 2 ^ 32 :=
  Array.size_replicate

lemma byteAt_filled (b : UInt8) (a : UInt32) : (filled b).byteAt a = some b := by
  change (if (0 : UInt32) ≤ a then (Array.replicate (2 ^ 32) b)[(a - 0).toNat]? else none) = _
  rw [if_pos UInt32.zero_le, UInt32.sub_zero, Array.getElem?_replicate, if_pos a.toNat_lt]

lemma readRun_filled (b : UInt8) (a : UInt32) (n : Nat) :
    (filled b).memory.readRun a n = List.replicate n b := by
  induction n generalizing a with
  | zero => rfl
  | succ n ih =>
    have hbyte : (filled b).memory.byteAt a = some b := byteAt_filled b a
    rw [Memory.readRun, hbyte, List.replicate_succ]
    dsimp only
    rw [ih]

lemma tail_filled (b : UInt8) (k : Nat) :
    (filled b).tail k = List.replicate (2 ^ 32 - k) b := by
  have hmin : min (filled b).bytes.size (2 ^ 32 - (filled b).origin.toNat) = 2 ^ 32 := by
    rw [size_filled]
    exact Nat.min_self _
  rw [tail, hmin, Array.toList_extract, List.extract_eq_take_drop, filled, Array.toList_replicate,
    List.drop_replicate, List.take_replicate, Nat.min_self]

end Image

/-- Decoding at an address of memory is decoding the longest run of readable bytes there, with the
same instruction or the same error. In an image the run ends with the image and at the last address;
only where the image fills all addresses is that address followed by the first byte again. -/
theorem decodeAt_eq_decode_longestRun (mode : Mode) :
    (∀ (memory : Memory) (address : UInt32),
      ∃! w : List UInt8, memory.IsLongestRun address maxLength w) ∧
    (∀ (memory : Memory) (address : UInt32) (w : List UInt8),
      memory.IsLongestRun address maxLength w →
        decodeAt mode memory address = decode mode w address) ∧
    (∀ (i : Image) (k : Nat), i.origin.toNat + k < 2 ^ 32 →
      ¬(i.origin = 0 ∧ 2 ^ 32 ≤ i.bytes.size) →
        i.memory.IsLongestRun (i.origin + UInt32.ofNat k) maxLength
          ((i.tail k).take maxLength)) ∧
    ∀ (i : Image) (k : Nat), k < 2 ^ 32 → i.origin = 0 → 2 ^ 32 ≤ i.bytes.size →
      i.memory.IsLongestRun (i.origin + UInt32.ofNat k) maxLength
        ((i.tail k ++ i.bytes.toList).take maxLength) := by
  refine ⟨?_, ?_, ?_, ?_⟩
  · intro memory address
    have hrun := memory.isLongestRun_readRun address maxLength
    exact ⟨_, hrun, fun w hw => hw.unique hrun⟩
  · intro memory address w hw
    exact decodeAt_of_isLongestRun hw
  · intro i k hk hfit
    exact i.isLongestRun_tail hk hfit maxLength
  · intro i k hk ho hfull
    exact i.isLongestRun_tail_append hk ho hfull (by decide)

theorem decodeAt_eq_decode_longestRun_wrapped :
    let memory := Memory.empty.overlay 0xFFFFFFFE #[0xB8, 0x34, 0x12]
    let image : Image := ⟨0xFFFFFFFE, #[0xB8, 0x34, 0x12]⟩
    let full := Image.filled 0x90
    (∃ i, decodeAt .real memory 0xFFFFFFFE = .ok i ∧ i.length = 3) ∧
      decodeAt .real image.memory 0xFFFFFFFE = .error ⟨0xFFFFFFFE, .truncated 3 1⟩ ∧
      full.memory.IsLongestRun (full.origin + UInt32.ofNat 0) maxLength
        ((full.tail 0 ++ full.bytes.toList).take maxLength) := by
  intro memory image full
  obtain ⟨-, heq, himage, hfull⟩ := decodeAt_eq_decode_longestRun .real
  refine ⟨?_, ?_, ?_⟩
  · rw [heq memory 0xFFFFFFFE _ (memory.isLongestRun_readRun _ _)]
    exact ⟨_, rfl, rfl⟩
  · have hrun := himage image 0 (by decide) (by decide)
    have horigin : image.origin + UInt32.ofNat 0 = 0xFFFFFFFE := by decide
    rw [horigin] at hrun
    rw [heq image.memory 0xFFFFFFFE _ hrun]
    decide +kernel
  · exact hfull full 0 (by decide) rfl (Nat.le_of_eq (Image.size_filled 0x90).symm)

/-- In an image that fills all addresses the run at the last address does not end there, and the
instruction at the last address is decoded with bytes from address zero on. -/
theorem not_isLongestRun_tail_filled :
    let image := Image.filled 0xB8
    let last := image.origin + UInt32.ofNat (2 ^ 32 - 1)
    let w := (image.tail (2 ^ 32 - 1)).take maxLength
    image.origin.toNat + (2 ^ 32 - 1) < 2 ^ 32 ∧ ¬image.memory.IsLongestRun last maxLength w ∧
      (∃ i, decodeAt .real image.memory last = .ok i ∧ i.length = 3) ∧
      decode .real w last = .error ⟨last, .truncated 3 1⟩ := by
  intro image last w
  have hlast : last = 0xFFFFFFFF := by decide
  have hw : w = [0xB8] := by
    change (image.tail (2 ^ 32 - 1)).take maxLength = _
    rw [Image.tail_filled]
    rfl
  have hrun := image.memory.isLongestRun_readRun last maxLength
  rw [Image.readRun_filled] at hrun
  rw [hw, hlast] at *
  refine ⟨by decide, ?_, ?_, ?_⟩
  · intro hshort
    exact absurd (hshort.unique hrun) (by decide)
  · rw [decodeAt_eq_decode_readRun, Image.readRun_filled]
    exact ⟨_, rfl, rfl⟩
  · decide +kernel

end X86Disassembly
