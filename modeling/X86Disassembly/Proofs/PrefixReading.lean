import X86Disassembly.Proofs.OpcodeReading

/-!
# Reading behind prefixes

Decoding can be cut at any place: bytes are taken, and a plan is left for those that follow. Of the
bytes taken the plan knows nothing. They come back in the length of the instruction, in the counts
of a truncation and in the bytes of an undefined instruction, and nowhere else, so that two
decodings that are left with the same plan differ in these only. What prefixes leave is one plan for
all prefixes with the same summary.
-/

namespace X86Disassembly

namespace Fetch

variable {α β γ : Type}

lemma bind_assoc (plan : Fetch α) (f : α → Fetch β) (g : β → Fetch γ) :
    plan >>= f >>= g = plan >>= fun a => f a >>= g := by
  induction plan with
  | done a => rfl
  | undefined => rfl
  | overlong => rfl
  | take count next ih =>
    change take count _ = take count _
    congr 1
    funext bytes
    exact ih bytes

lemma bind_congr_of_leads {plan : Fetch α} {f g : α → Fetch β}
    (h : ∀ bytes a, plan.Leads bytes (.done a) → f a = g a) : plan >>= f = plan >>= g := by
  induction plan with
  | done a => exact h [] a (.refl _)
  | undefined => rfl
  | overlong => rfl
  | take count next ih =>
    change take count _ = take count _
    congr 1
    funext bytes
    exact ih bytes fun more a hmore => h (bytes.toList ++ more) a (.take bytes hmore)

/-- The outcome of decoding once some bytes are taken and a plan is left for those that follow. -/
def resume (plan : Fetch Body) (taken rest : List UInt8) (address : UInt32) : Outcome :=
  let result := plan.run (⟨⟨taken.length, rest⟩, taken⟩ : Tape ByteCursor)
  .ofRun address result.2.taken.length result.1

section Resume

variable {taken rest : List UInt8} {address : UInt32} {count : Nat}
  {next : Vector UInt8 count → Fetch Body}

@[simp]
lemma resume_done (body : Body) :
    (done body).resume taken rest address =
      .ok { toBody := body, address, length := taken.length } := rfl

@[simp]
lemma resume_undefined :
    (undefined : Fetch Body).resume taken rest address =
      .error ⟨address, .undefined taken⟩ := rfl

@[simp]
lemma resume_overlong :
    (overlong : Fetch Body).resume taken rest address =
      .error ⟨address, .tooLong maxLength⟩ := rfl

lemma resume_take_of_full (h : maxLength < taken.length + count) :
    (take count next).resume taken rest address = .error ⟨address, .tooLong maxLength⟩ := by
  rw [resume, Halts.run (.full h)]
  rfl

lemma resume_take_of_short (room : taken.length + count ≤ maxLength) (h : rest.length < count) :
    (take count next).resume taken rest address =
      .error ⟨address, .truncated (taken.length + count) taken.length⟩ := by
  rw [resume, Halts.run (.short room h)]
  rfl

lemma resume_take_append (room : taken.length + count ≤ maxLength) (bytes : Vector UInt8 count) :
    (take count next).resume taken (bytes.toList ++ rest) address =
      (next bytes).resume (taken ++ bytes.toList) rest address := by
  have hlength : (taken ++ bytes.toList).length = taken.length + count := by simp
  rw [resume, resume, Fetch.run, if_neg (Nat.not_lt.mpr room), ByteCursor.fetch_append, hlength]

lemma resume_byte_bind (f : UInt8 → Fetch Body) (taken rest : List UInt8) (address : UInt32) :
    (byte >>= f).resume taken rest address =
      if maxLength ≤ taken.length then .error ⟨address, .tooLong maxLength⟩
      else match rest with
        | [] => .error ⟨address, .truncated (taken.length + 1) taken.length⟩
        | b :: rest => (f b).resume (taken ++ [b]) rest address := by
  split
  · apply resume_take_of_full
    omega
  · cases rest with
    | nil =>
      apply resume_take_of_short
      · omega
      · exact Nat.one_pos
    | cons b rest => exact resume_take_append (by omega) #v[b]

end Resume

lemma exists_resume_eq (plan : Fetch Body) {taken : List UInt8} (start : taken.length ≤ maxLength)
    (rest : List UInt8) (address : UInt32) :
    ∃ (read more : List UInt8) (left : Fetch Body) (result : Except Fault Body),
      rest = read ++ more ∧ plan.Leads read left ∧ left.Halts (taken ++ read) more result ∧
        plan.resume taken rest address = .ofRun address (taken ++ read).length result := by
  obtain ⟨read, more, left, result, rfl, hread, hhalt, room⟩ :=
    plan.exists_leads_halts rest taken start
  refine ⟨read, more, left, result, rfl, hread, hhalt, ?_⟩
  rw [resume, hread.run taken more taken.length room, hhalt.run]

lemma exists_leads_of_resume_eq_ok {plan : Fetch Body} {taken rest : List UInt8} {address : UInt32}
    {i : Instruction} (h : plan.resume taken rest address = .ok i) :
    ∃ read body, plan.Leads read (.done body) := by
  induction plan generalizing taken rest with
  | done body => exact ⟨[], body, .refl _⟩
  | undefined => cases h
  | overlong => cases h
  | take count next ih =>
    by_cases hfull : maxLength < taken.length + count
    · rw [resume_take_of_full hfull] at h
      cases h
    by_cases hshort : rest.length < count
    · rw [resume_take_of_short (by omega) hshort] at h
      cases h
    obtain ⟨bytes, rest, rfl⟩ := exists_vector_append (Nat.not_lt.mp hshort)
    rw [resume_take_append (by omega)] at h
    obtain ⟨read, body, hread⟩ := ih bytes h
    exact ⟨bytes.toList ++ read, body, .take bytes hread⟩

end Fetch

lemma decode_eq_resume (mode : Mode) (bytes : List UInt8) (address : UInt32) :
    decode mode bytes address = (Decode.readBody mode).resume [] bytes address := by
  rw [decode, decodeFrom, Fetch.resume]
  cases (Decode.readBody mode).run (⟨⟨0, bytes⟩, []⟩ : Tape ByteCursor) with
  | mk result tape => cases result <;> rfl

/-- The fault with other bytes in place of the first ones. -/
def Fault.restart (start : List UInt8) : Fault → Fault
  | .undefined bytes => .undefined (start ++ bytes.drop start.length)
  | fault => fault

/-- The outcome with other bytes in place of the first ones of an undefined instruction. -/
def Outcome.restart (start : List UInt8) : Outcome → Outcome
  | .ok i => .ok i
  | .error e => .error { e with fault := e.fault.restart start }

/-- The fault when one more byte stands before all others. -/
def Fault.behind (byte : UInt8) : Fault → Fault
  | .truncated needed available =>
    if needed < maxLength then .truncated (needed + 1) (available + 1) else .tooLong maxLength
  | .undefined bytes =>
    if bytes.length < maxLength then .undefined (byte :: bytes) else .tooLong maxLength
  | .tooLong _ => .tooLong maxLength

/-- The outcome when one more byte stands before all others: an instruction is longer by one, a
truncation counts one more, and what fills all the room is too long. -/
def Outcome.behind (byte : UInt8) : Outcome → Outcome
  | .ok i =>
    if i.length < maxLength then .ok { i with length := i.length + 1 }
    else .error ⟨i.address, .tooLong maxLength⟩
  | .error e => .error { e with fault := e.fault.behind byte }

namespace Fetch

variable (plan : Fetch Body) (address : UInt32)

/-- As many other bytes before the same plan change the bytes of an undefined instruction and
nothing else. -/
theorem resume_append_eq_restart {first second : List UInt8}
    (hlength : first.length = second.length) (more rest : List UInt8) :
    plan.resume (second ++ more) rest address =
      (plan.resume (first ++ more) rest address).restart second := by
  have hmore : ∀ more : List UInt8, (first ++ more).length = (second ++ more).length := by
    intro more
    rw [List.length_append, List.length_append, hlength]
  induction plan generalizing more rest with
  | done body => rw [resume_done, resume_done, hmore, Outcome.restart]
  | undefined =>
    rw [resume_undefined, resume_undefined, Outcome.restart, Fault.restart, ← hlength,
      List.drop_left]
  | overlong => rfl
  | take count next ih =>
    by_cases hfull : maxLength < (second ++ more).length + count
    · rw [resume_take_of_full hfull, resume_take_of_full (by rwa [hmore])]
      rfl
    by_cases hshort : rest.length < count
    · rw [resume_take_of_short (by omega) hshort,
        resume_take_of_short (by rw [hmore]; omega) hshort, hmore]
      rfl
    obtain ⟨bytes, rest, rfl⟩ := exists_vector_append (Nat.not_lt.mp hshort)
    rw [resume_take_append (by omega), resume_take_append (by rw [hmore]; omega),
      List.append_assoc, List.append_assoc]
    exact ih bytes _ rest

lemma behind_resume_of_full {taken : List UInt8} (hfull : maxLength ≤ taken.length)
    (rest : List UInt8) (byte : UInt8) :
    (plan.resume taken rest address).behind byte = .error ⟨address, .tooLong maxLength⟩ := by
  induction plan generalizing taken rest with
  | done body =>
    rw [resume_done, Outcome.behind, if_neg (by dsimp only; omega)]
  | undefined =>
    rw [resume_undefined, Outcome.behind, Fault.behind, if_neg (by omega)]
  | overlong => rfl
  | take count next ih =>
    by_cases hroom : maxLength < taken.length + count
    · rw [resume_take_of_full hroom]
      rfl
    obtain ⟨bytes, rest, rfl⟩ := exists_vector_append (show count ≤ rest.length by omega)
    rw [resume_take_append (by omega)]
    apply ih
    rw [List.length_append]
    omega

/-- One more byte before the same plan. -/
theorem resume_cons_eq_behind {taken : List UInt8} (room : taken.length < maxLength)
    (rest : List UInt8) (byte : UInt8) :
    plan.resume (byte :: taken) rest address = (plan.resume taken rest address).behind byte := by
  have hcons : (byte :: taken).length = taken.length + 1 := rfl
  induction plan generalizing taken rest with
  | done body => rw [resume_done, resume_done, Outcome.behind, if_pos room, hcons]
  | undefined =>
    rw [resume_undefined, resume_undefined, Outcome.behind, Fault.behind, if_pos room]
  | overlong => rfl
  | take count next ih =>
    by_cases hfull : maxLength < taken.length + count
    · rw [resume_take_of_full hfull, resume_take_of_full (by omega)]
      rfl
    have hroom : taken.length + count ≤ maxLength := by omega
    by_cases hshort : rest.length < count
    · have htruncated : (take count next).resume taken rest address = _ :=
        resume_take_of_short hroom hshort
      rw [htruncated, Outcome.behind, Fault.behind]
      split
      · rw [resume_take_of_short (by omega) hshort, hcons, Nat.add_right_comm]
      · rw [resume_take_of_full (by omega)]
    obtain ⟨bytes, rest, rfl⟩ := exists_vector_append (Nat.not_lt.mp hshort)
    have hlength : (taken ++ bytes.toList).length = taken.length + count := by simp
    have hread : (take count next).resume taken (bytes.toList ++ rest) address = _ :=
      resume_take_append hroom bytes
    rw [hread]
    by_cases hlast : maxLength < (byte :: taken).length + count
    · rw [resume_take_of_full hlast, behind_resume_of_full _ _ (by omega)]
    · rw [resume_take_append (by omega), List.cons_append]
      exact ih bytes (by omega) rest rfl

end Fetch

lemma Prefixes.of_append (given more : List Prefix) :
    Prefixes.of (given ++ more) = more.foldl Prefixes.add (Prefixes.of given) := by
  induction more generalizing given with
  | nil => rw [List.append_nil, List.foldl_nil]
  | cons m more ih => rw [List.append_cons, ih, Prefixes.of_concat, List.foldl_cons]

namespace Decode

/-- Read the operands of a form whose ModRM byte is known. -/
def readOperands (p : Processor) (form : Form) (start : Fields) : Fetch Body := do
  let operands := form.operands.map (·.instantiate start.operandSize)
  let fields ← operands.toList.foldlM (readOperand p) start
  return ⟨form.operation, operands, fields⟩

/-- Read what follows an opcode. -/
def readEntry (p : Processor) (start : UInt8 → Fields) (entry : Entry) : Fetch Body := do
  let (form, modrm) ← readForm entry
  readOperands p form (start modrm)

/-- Read what follows the first byte of an opcode. -/
def readLead (p : Processor) (start : UInt8 → Fields) : Lead → Fetch Body
  | .modifier _ => .overlong
  | .escape => do readEntry p start (TwoByte.entry (← .byte))
  | .opcode e => readEntry p start e

/-- Read an instruction from its opcode on. -/
def readUnprefixed (p : Processor) (start : UInt8 → Fields) : Fetch Body := do
  readLead p start (p.lead (← .byte))

/-- Read an instruction from any of its prefixes on. -/
def readPrefixed (mode : Mode) (room : Nat) (seen : Prefixes) : Fetch Body := do
  let (seen, entry) ← readOpcode mode.processor room seen
  readEntry mode.processor (startFields mode seen) entry

lemma readBody_eq_readPrefixed (mode : Mode) : readBody mode = readPrefixed mode maxLength {} := rfl

lemma readPrefixed_succ (mode : Mode) (room : Nat) (seen : Prefixes) :
    readPrefixed mode (room + 1) seen = Fetch.byte >>= fun b =>
      match mode.processor.lead b with
      | .modifier m => readPrefixed mode room (seen.add m)
      | other => readLead mode.processor (startFields mode seen) other := by
  rw [readPrefixed, readOpcode]
  change Fetch.take 1 _ = Fetch.take 1 _
  congr 1
  funext bytes
  simp only [Fetch.bind]
  cases mode.processor.lead bytes[0] with
  | modifier m => rfl
  | escape => rfl
  | opcode e => rfl

/-- Prefixes are taken one by one, and the opcode is read under what they come to. -/
lemma resume_readPrefixed {mode : Mode} {prefixes rest : List UInt8}
    (hprefixes : ∀ b ∈ prefixes, (mode.processor.modifier? b).isSome)
    (hrest : ∀ b ∈ rest.head?, mode.processor.modifier? b = none) (given : List Prefix)
    {taken : List UInt8} {room : Nat} (hroom : taken.length + room = maxLength)
    (address : UInt32) :
    (readPrefixed mode room (.of given)).resume taken (prefixes ++ rest) address =
      (readUnprefixed mode.processor (startFields mode
        (.of (given ++ prefixes.filterMap mode.processor.modifier?)))).resume
          (taken ++ prefixes) rest address := by
  induction room generalizing prefixes given taken with
  | zero =>
    have hfull : maxLength ≤ (taken ++ prefixes).length := by
      rw [List.length_append]
      omega
    rw [readUnprefixed, Fetch.resume_byte_bind, if_pos hfull]
    rfl
  | succ room ih =>
    rw [readPrefixed_succ, Fetch.resume_byte_bind, if_neg (by omega)]
    cases prefixes with
    | nil =>
      rw [readUnprefixed, Fetch.resume_byte_bind, List.append_nil, if_neg (by omega),
        List.filterMap_nil, List.append_nil, List.nil_append]
      cases rest with
      | nil => rfl
      | cons b rest =>
        have hb := hrest b rfl
        unfold Processor.modifier? at hb
        dsimp only
        cases hlead : mode.processor.lead b with
        | modifier m =>
          rw [hlead] at hb
          cases hb
        | escape => rfl
        | opcode e => rfl
    | cons b prefixes =>
      obtain ⟨m, hm⟩ := Option.isSome_iff_exists.mp (hprefixes b List.mem_cons_self)
      have hlead := Processor.modifier?_eq_some_iff.mp hm
      have hlength : (taken ++ [b]).length + room = maxLength := by
        rw [List.length_append, List.length_singleton]
        omega
      have hstep := ih (fun c hc => hprefixes c (List.mem_cons_of_mem b hc)) (given ++ [m]) hlength
      rw [Prefixes.of_concat, List.append_assoc, List.append_assoc, List.singleton_append,
        List.singleton_append, ← List.filterMap_cons_some hm] at hstep
      rw [List.cons_append]
      dsimp only
      rw [hlead]
      exact hstep

end Decode

/-- Decoding behind prefixes is reading an instruction from its opcode on, under the summary of the
prefixes. -/
theorem decode_prefixes_append (mode : Mode) {prefixes rest : List UInt8}
    (hprefixes : ∀ b ∈ prefixes, (mode.processor.modifier? b).isSome)
    (hrest : ∀ b ∈ rest.head?, mode.processor.modifier? b = none) (address : UInt32) :
    decode mode (prefixes ++ rest) address =
      (Decode.readUnprefixed mode.processor (Decode.startFields mode
        (mode.summary prefixes))).resume prefixes rest address := by
  rw [decode_eq_resume, Decode.readBody_eq_readPrefixed]
  exact Decode.resume_readPrefixed hprefixes hrest [] (Nat.zero_add _) address

lemma decode_prefixes_append_cons (mode : Mode) {prefixes : List UInt8}
    (hprefixes : ∀ b ∈ prefixes, (mode.processor.modifier? b).isSome) {x : UInt8}
    (hx : mode.processor.modifier? x = none) (rest : List UInt8) (address : UInt32) :
    decode mode (prefixes ++ x :: rest) address =
      if maxLength ≤ prefixes.length then .error ⟨address, .tooLong maxLength⟩
      else (Decode.readLead mode.processor (Decode.startFields mode (mode.summary prefixes))
        (mode.processor.lead x)).resume (prefixes ++ [x]) rest address := by
  have hrest : ∀ b ∈ (x :: rest).head?, mode.processor.modifier? b = none := by
    intro b hb
    obtain rfl : x = b := Option.some.inj hb
    exact hx
  rw [decode_prefixes_append mode hprefixes hrest, Decode.readUnprefixed, Fetch.resume_byte_bind]

end X86Disassembly
