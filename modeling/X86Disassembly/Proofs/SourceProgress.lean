import X86Disassembly.Proofs.Encoding
import X86Disassembly.Proofs.ForwardListing

/-!
# Where decoding leaves its source

The bytes that decoding counts and the bytes that it has pulled from its source are the same, at
whatever place it stops. Only a request that fails can leave the two apart: a cursor over a list
stays before it, while a memory cursor stops at the first address that cannot be read. A list can
therefore be decoded with one cursor, instruction after instruction.
-/

namespace X86Disassembly

namespace Fetch

variable {α β : Type}

/-- Each request is for at most four bytes, and the plan is not given up as overlong before it has
read `room` bytes. -/
def Paced : Nat → Fetch α → Prop
  | _, .done _ => True
  | _, .undefined => True
  | room, .overlong => room = 0
  | room, .take count next => count ≤ 4 ∧ ∀ bytes, (next bytes).Paced (room - count)

lemma Paced.of_leads {room : Nat} {plan left : Fetch α} {bytes : List UInt8} (h : plan.Paced room)
    (hlead : plan.Leads bytes left) : left.Paced (room - bytes.length) := by
  induction hlead generalizing room with
  | refl plan => exact h
  | @take count next rest left bytes _ ih =>
    have hleft := ih (h.2 bytes)
    rwa [Nat.sub_sub, ← bytes.length_toList, ← List.length_append] at hleft

lemma Paced.bind {room : Nat} {plan : Fetch α} {f : α → Fetch β} (h : plan.Paced room)
    (hf : ∀ a n, (f a).Paced n) : (plan >>= f).Paced room := by
  induction plan generalizing room with
  | done a => exact hf a room
  | undefined => trivial
  | overlong => exact h
  | take count next ih => exact ⟨h.1, fun bytes => ih bytes (h.2 bytes)⟩

lemma paced_byte (room : Nat) : byte.Paced room :=
  ⟨by decide, fun _ => trivial⟩

lemma paced_unsigned {count : Nat} (h : count ≤ 4) (room : Nat) : (unsigned count).Paced room :=
  ⟨h, fun _ => trivial⟩

lemma paced_signed {count : Nat} (h : count ≤ 4) (room : Nat) : (signed count).Paced room :=
  ⟨h, fun _ => trivial⟩

lemma paced_foldlM {f : β → α → Fetch β} (hf : ∀ b a n, (f b a).Paced n) (l : List α) (b : β)
    (room : Nat) : (l.foldlM f b).Paced room := by
  induction l generalizing b room with
  | nil => trivial
  | cons a l ih =>
    rw [List.foldlM_cons]
    exact (hf b a room).bind fun b n => ih b n

end Fetch

namespace Decode

open Fetch

lemma paced_readOpcode (p : Processor) (room : Nat) (seen : Prefixes) :
    (readOpcode p room seen).Paced room := by
  induction room generalizing seen with
  | zero => rfl
  | succ room ih =>
    refine ⟨by decide, ?_⟩
    intro bytes
    simp only [Fetch.bind]
    cases p.lead bytes[0] with
    | modifier m => exact ih (seen.add m)
    | escape => exact (paced_byte _).bind fun _ _ => trivial
    | opcode e => trivial

lemma paced_listed (row : Option Form) (room : Nat) : (listed row).Paced room := by
  cases row with
  | none => trivial
  | some form => trivial

lemma paced_readForm (entry : Entry) (room : Nat) : (readForm entry).Paced room := by
  cases entry with
  | undefined => trivial
  | form f =>
    rw [readForm]
    split
    · exact (paced_byte room).bind fun _ _ => trivial
    · trivial
  | group rows =>
    exact (paced_byte room).bind fun _ n => (paced_listed _ n).bind fun _ _ => trivial
  | coprocessor rows =>
    exact (paced_byte room).bind fun _ n => (paced_listed _ n).bind fun _ _ => trivial

lemma paced_readDisplacement (f : Fields) (d : Displacement) (room : Nat) :
    (readDisplacement f d).Paced room := by
  cases d with
  | none => trivial
  | byte => exact (paced_signed (by decide) room).bind fun _ _ => trivial
  | word => exact (paced_signed (by decide) room).bind fun _ _ => trivial
  | dword => exact (paced_signed (by decide) room).bind fun _ _ => trivial

lemma paced_readRegisterOrMemory (f : Fields) (room : Nat) :
    (readRegisterOrMemory f).Paced room := by
  unfold readRegisterOrMemory
  split
  · trivial
  · exact (paced_byte room).bind fun _ n => paced_readDisplacement _ _ n
  · exact paced_readDisplacement _ _ room

lemma paced_readOperand (p : Processor) (f : Fields) (o : Operand) (room : Nat) :
    (readOperand p f o).Paced room := by
  have hsize := o.size.immediateBytes_le
  have hoffset := f.addressSize.bytes_le
  unfold readOperand
  split
  · split
    · trivial
    · trivial
  · exact paced_readRegisterOrMemory f room
  · trivial
  · exact (paced_unsigned hsize room).bind fun _ _ => trivial
  · exact (paced_unsigned hsize room).bind fun _ _ => trivial
  · exact (paced_signed hsize room).bind fun _ _ => trivial
  · exact (paced_unsigned hoffset room).bind fun _ _ => trivial
  · exact (paced_unsigned hsize room).bind fun _ n =>
      (paced_unsigned (by decide) n).bind fun _ _ => trivial
  · trivial

/-- Decoding asks for at most four bytes at a time, and gives up by itself only after as many
prefixes as an instruction has bytes. -/
theorem paced_readBody (mode : Mode) : (readBody mode).Paced maxLength :=
  (paced_readOpcode _ _ _).bind fun _ _ => (paced_readForm _ _).bind fun _ _ =>
    (paced_foldlM (paced_readOperand _) _ _ _).bind fun _ _ => trivial

end Decode

namespace Fetch

variable {α : Type} {m : Memory} {a : UInt32} {taken : List UInt8}

lemma Leads.run_memory {plan left : Fetch α} {bytes : List UInt8} (h : plan.Leads bytes left)
    (hbytes : m.readRun a bytes.length = bytes)
    (room : taken.length + bytes.length ≤ maxLength) :
    plan.run (⟨⟨m, a⟩, taken⟩ : Tape MemoryCursor) =
      left.run ⟨⟨m, a + UInt32.ofNat bytes.length⟩, taken ++ bytes⟩ := by
  induction h generalizing a taken with
  | refl plan =>
    have hzero : a + UInt32.ofNat 0 = a := UInt32.add_zero a
    rw [List.length_nil, hzero, List.append_nil]
  | @take count next rest left bytes _ ih =>
    have hlength : (bytes.toList ++ rest).length = count + rest.length := by simp
    have htaken : (taken ++ bytes.toList).length = taken.length + count := by simp
    rw [hlength] at hbytes room ⊢
    have hfirst : m.readRun a count = bytes.toList := by
      rw [← m.take_readRun a (Nat.le_add_right count rest.length), hbytes]
      exact List.take_left' bytes.length_toList
    have hrest : m.readRun (a + UInt32.ofNat count) rest.length = rest := by
      have hfull : (m.readRun a count).length = count := by rw [hfirst, bytes.length_toList]
      have hdrop := Memory.drop_readRun hfull (Nat.le_add_right count rest.length)
      rw [hbytes, Nat.add_sub_cancel_left, List.drop_left' bytes.length_toList] at hdrop
      exact hdrop.symm
    have hroom : ¬maxLength < taken.length + count := by omega
    rw [Fetch.run, if_neg hroom, MemoryCursor.fetch_of_readRun_eq bytes hfirst]
    dsimp only
    rw [ih hrest (by omega), List.append_assoc, UInt32.add_assoc, ← UInt32.ofNat_add]

lemma Halts.run_memory {plan : Fetch α} {rest : List UInt8} {result : Except Fault α}
    (h : plan.Halts taken rest result) (hrest : rest = m.readRun a (maxLength - taken.length)) :
    ∃ k, plan.run (⟨⟨m, a⟩, taken⟩ : Tape MemoryCursor) =
        (result, ⟨⟨m, a + UInt32.ofNat k⟩, taken⟩) ∧
      ((∀ needed available, result ≠ .error (.truncated needed available)) → k = 0) ∧
      ∀ needed available, result = .error (.truncated needed available) →
        available + k < needed ∧ m.byteAt (a + UInt32.ofNat k) = none := by
  have hzero : a + UInt32.ofNat 0 = a := UInt32.add_zero a
  cases h with
  | done value => exact ⟨0, by rw [hzero]; rfl, fun _ => rfl, by simp⟩
  | undefined => exact ⟨0, by rw [hzero]; rfl, fun _ => rfl, by simp⟩
  | overlong => exact ⟨0, by rw [hzero]; rfl, fun _ => rfl, by simp⟩
  | full h =>
    refine ⟨0, ?_, fun _ => rfl, by simp⟩
    rw [hzero, Fetch.run, if_pos h]
  | @short count next _ _ room h =>
    have hcount : m.readRun a count = rest := by
      rw [← m.take_readRun a (show count ≤ maxLength - taken.length by omega), ← hrest]
      exact List.take_of_length_le (Nat.le_of_lt h)
    have hshort : (m.readRun a count).length < count := by rwa [hcount]
    refine ⟨(m.readRun a count).length, ?_, fun hne => absurd rfl (hne _ _), ?_⟩
    · rw [Fetch.run, if_neg (Nat.not_lt.mpr room), MemoryCursor.fetch_of_length_lt hshort]
    · intro needed available heq
      cases heq
      exact ⟨Nat.add_lt_add_left hshort _, (m.isLongestRun_readRun a count).gap hshort⟩

end Fetch

/-- The source has moved by `k` bytes, and the outcome accounts for them. `ahead` is what the source
held at a distance, and `cut` says where a truncation leaves it. -/
def Outcome.Moves (ahead : Nat → Option UInt8) (cut : (needed available k : Nat) → Prop) (k : Nat) :
    Outcome → Prop
  | .ok i => k = i.length
  | .error ⟨_, .undefined bytes⟩ => k = bytes.length ∧ ∀ j < k, ahead j = bytes[j]?
  | .error ⟨_, .truncated needed available⟩ => cut needed available k
  | .error ⟨_, .tooLong _⟩ => 12 ≤ k ∧ k ≤ 15

lemma moves_of_halts {mode : Mode} {read rest : List UInt8} {left : Fetch Body}
    {result : Except Fault Body} (hread : (Decode.readBody mode).Leads read left)
    (hhalt : left.Halts read rest result) (room : read.length ≤ maxLength) (address : UInt32)
    {ahead : Nat → Option UInt8} (hahead : ∀ j < read.length, ahead j = read[j]?)
    {cut : (needed available k : Nat) → Prop} {k : Nat}
    (hk : (∀ needed available, result ≠ .error (.truncated needed available)) → k = read.length)
    (hcut : ∀ needed available, result = .error (.truncated needed available) →
      cut needed available k) :
    (Outcome.ofRun address read.length result).Moves ahead cut k := by
  have hpaced := (Decode.paced_readBody mode).of_leads hread
  cases hhalt with
  | done body => exact hk (by simp)
  | undefined =>
    obtain rfl := hk (by simp)
    exact ⟨rfl, hahead⟩
  | overlong =>
    obtain rfl := hk (by simp)
    have hfull : maxLength - read.length = 0 := hpaced
    simp only [maxLength] at hfull room
    change 12 ≤ read.length ∧ read.length ≤ 15
    omega
  | full h =>
    obtain rfl := hk (by simp)
    have hcount := hpaced.1
    simp only [maxLength] at h room
    change 12 ≤ read.length ∧ read.length ≤ 15
    omega
  | short => exact hcut _ _ rfl

lemma decodeFrom_eq {σ : Type} [ByteSource σ] {mode : Mode} {source source' : σ}
    {result : Except Fault Body} {read : List UInt8}
    (h : (Decode.readBody mode).run ⟨source, []⟩ = (result, ⟨source', read⟩)) (address : UInt32) :
    decodeFrom mode source address = (.ofRun address read.length result, source') := by
  rw [decodeFrom, h]
  cases result with
  | ok body => rfl
  | error fault => rfl

lemma exists_decodeFrom_byteCursor (mode : Mode) (c : ByteCursor) (address : UInt32) :
    ∃ k ≤ c.remaining.length,
      decodeFrom mode c address = (decode mode c.remaining address,
        ⟨c.position + k, c.remaining.drop k⟩) ∧
      (decode mode c.remaining address).Moves (fun j => c.remaining[j]?)
        (fun _ available k => k = available) k := by
  obtain ⟨position, bytes⟩ := c
  obtain ⟨read, rest, left, result, rfl, hread, hhalt, room, heq⟩ :=
    exists_decode_eq mode bytes address
  dsimp only
  refine ⟨read.length, by simp, ?_, ?_⟩
  · have hrun := hread.run [] rest position (by simpa using room)
    rw [List.nil_append, hhalt.run] at hrun
    rw [decodeFrom_eq hrun, heq, List.drop_left]
  · rw [heq]
    refine moves_of_halts hread hhalt room address ?_ (fun _ => rfl) ?_
    · intro j hj
      exact List.getElem?_append_left hj
    · rintro needed available rfl
      cases hhalt
      rfl

/-- A memory cursor moves by the bytes that decoding counts and, when they do not suffice, up to the
first address that cannot be read. -/
lemma exists_decodeFrom_memoryCursor (mode : Mode) (m : Memory) (q address : UInt32) :
    ∃ k, (decodeFrom mode (MemoryCursor.mk m q) address).2 = ⟨m, q + UInt32.ofNat k⟩ ∧
      (decodeFrom mode (MemoryCursor.mk m q) address).1.Moves
        (fun j => m.byteAt (q + UInt32.ofNat j))
        (fun needed available k =>
          available ≤ k ∧ k < needed ∧ m.byteAt (q + UInt32.ofNat k) = none) k := by
  obtain ⟨read, rest, left, result, hsplit, hread, hhalt, room⟩ :=
    (Decode.readBody mode).exists_leads_halts (m.readRun q maxLength) [] (Nat.zero_le _)
  rw [List.nil_append] at hhalt
  rw [List.length_nil, Nat.zero_add] at room
  have hbytes : m.readRun q read.length = read := by
    rw [← m.take_readRun q room, hsplit, List.take_left]
  have hrest : rest = m.readRun (q + UInt32.ofNat read.length) (maxLength - read.length) := by
    rw [← Memory.drop_readRun (by rw [hbytes]) room, hsplit, List.drop_left]
  obtain ⟨k, hrun, hstay, hstop⟩ := hhalt.run_memory hrest
  have hall : (Decode.readBody mode).run (⟨⟨m, q⟩, []⟩ : Tape MemoryCursor) = _ :=
    hread.run_memory hbytes (by simpa using room)
  rw [List.nil_append, hrun, UInt32.add_assoc, ← UInt32.ofNat_add] at hall
  rw [decodeFrom_eq hall]
  refine ⟨read.length + k, rfl, ?_⟩
  refine moves_of_halts hread hhalt room address (fun j hj => Memory.byteAt_of_readRun_eq hbytes hj)
    ?_ ?_
  · intro hne
    rw [hstay hne, Nat.add_zero]
  · intro needed available heq
    obtain ⟨hlt, hnone⟩ := hstop needed available heq
    rw [UInt32.add_assoc, ← UInt32.ofNat_add] at hnone
    cases hhalt with
    | short =>
      cases heq
      exact ⟨Nat.le_add_right _ _, hlt, hnone⟩
    | done => cases heq
    | undefined => cases heq
    | overlong => cases heq
    | full => cases heq

/-- Decode up to `count` instructions from one cursor, each at the address where the one before it
ends, and stop at the first failure. -/
def decodeSuccessive (mode : Mode) : (count : Nat) → ByteCursor → UInt32 → List Outcome
  | 0, _, _ => []
  | count + 1, c, a =>
    match decodeFrom mode c a with
    | (.ok i, c) => .ok i :: decodeSuccessive mode count c (a + UInt32.ofNat i.length)
    | (.error _, _) => []

lemma disassemble_of_ne_nil {bytes : List UInt8} (hne : bytes ≠ []) (mode : Mode) (a : UInt32) :
    let outcome := decode mode bytes a
    disassemble mode bytes a = outcome ::
      disassemble mode (bytes.drop outcome.span) (a + UInt32.ofNat outcome.span) := by
  have hzero : a + UInt32.ofNat 0 = a := UInt32.add_zero a
  have hsteps : Block.stepsFrom mode a bytes 0 0 = _ := Block.stepsFrom_of_ne_nil hne 0
  rw [hzero, Nat.zero_add] at hsteps
  dsimp only
  rw [disassemble, disassemble, Block.steps, Block.steps, hsteps, List.map_cons,
    ← Block.map_outcome_stepsFrom_add, Nat.add_zero]

theorem decodeSuccessive_eq_leading (mode : Mode) (count : Nat) (c : ByteCursor) (a : UInt32) :
    decodeSuccessive mode count c a =
      (Listing.leading (disassemble mode c.remaining a)).take count := by
  induction count generalizing c a with
  | zero => rfl
  | succ count ih =>
    obtain ⟨k, -, hfrom, hmoves⟩ := exists_decodeFrom_byteCursor mode c a
    rw [decodeSuccessive, hfrom]
    by_cases hnil : c.remaining = []
    · rw [hnil]
      rfl
    · rw [disassemble_of_ne_nil hnil]
      cases hdecode : decode mode c.remaining a with
      | error e => rfl
      | ok i =>
        rw [hdecode] at hmoves
        obtain rfl : k = i.length := hmoves
        rw [Listing.leading_cons_ok, List.take_succ_cons]
        exact congrArg _ (ih _ _)

/-- Decoding moves its source by exactly what the outcome accounts for: an instruction by its
length, an undefined one by the bytes that it shows, which are those of the source, and one that is
too long by 12 to 15 bytes. A truncation leaves a cursor over a list behind the bytes that were
available, and a memory cursor at the first address that cannot be read. Decoding one instruction
after another from one cursor gives what a walk over the rest of the list finds before its first
error. -/
theorem decodeFrom_moves_source (mode : Mode) :
    (∀ (c : ByteCursor) (address : UInt32), ∃ k ≤ c.remaining.length,
      decodeFrom mode c address =
        (decode mode c.remaining address, ⟨c.position + k, c.remaining.drop k⟩) ∧
      (decode mode c.remaining address).Moves (fun j => c.remaining[j]?)
        (fun _ available k => k = available) k) ∧
    (∀ (m : Memory) (q address : UInt32), ∃ k,
      (decodeFrom mode (MemoryCursor.mk m q) address).2 = ⟨m, q + UInt32.ofNat k⟩ ∧
      (decodeFrom mode (MemoryCursor.mk m q) address).1.Moves
        (fun j => m.byteAt (q + UInt32.ofNat j))
        (fun needed available k =>
          available ≤ k ∧ k < needed ∧ m.byteAt (q + UInt32.ofNat k) = none) k) ∧
    ∀ (count : Nat) (c : ByteCursor) (a : UInt32),
      decodeSuccessive mode count c a =
        (Listing.leading (disassemble mode c.remaining a)).take count := by
  refine ⟨?_, ?_, ?_⟩
  · exact exists_decodeFrom_byteCursor mode
  · exact exists_decodeFrom_memoryCursor mode
  · exact decodeSuccessive_eq_leading mode

/-- A move of a doubleword into a register of which memory holds three bytes: the bytes that were
there are counted as far as the opcode only, but the cursor has passed them all. -/
example :
    let memory : Memory := Memory.empty.overlay 0xFFFFFFFE #[0xB8, 0x34, 0x12]
    (decodeFrom .flat (MemoryCursor.mk memory 0xFFFFFFFE) 0).1 =
        .error ⟨0, .truncated 5 1⟩ ∧
      (decodeFrom .flat (MemoryCursor.mk memory 0xFFFFFFFE) 0).2.address = 1 := by
  decide

end X86Disassembly
