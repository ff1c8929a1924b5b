import Mathlib.Logic.Function.Iterate
import X86Disassembly.Proofs.PrefixReading
import X86Disassembly.Proofs.SourceProgress
import X86Disassembly.Proofs.StepwiseDecoding

/-!
# Bounds of decoding

The stepwise decoder passes none of the bounds that it could pass, whatever its source answers. What
it has yet to do is at any time the rest of the plan that decoding follows (`Agrees`), every step
keeps that and leaves fewer steps to take (`nears_step`), and so it stops with what `decodeFrom`
gives. The plan reads the ModRM byte before all operands, the machine before the first operand that
needs it. Both come to the same, since only operands that take nothing from the code stand before
that one.
-/

namespace X86Disassembly.Stepwise

/-- Only operands that take nothing from the code stand before the first one that needs a ModRM
byte. -/
def modrmFirst : List Source → Bool
  | [] => true
  | source :: rest =>
    source.usesModRM || ((source.parts.isEmpty || !rest.any (·.usesModRM)) && modrmFirst rest)

lemma modrmFirst_of_mem_listedForms {f : Form} (h : f ∈ listedForms) :
    modrmFirst f.sources = true := by
  have htable : ∀ f ∈ listedForms, modrmFirst f.sources = true := by decide +kernel
  exact htable f h

lemma readOperand_of_isEmpty_parts {o : Operand} (huses : o.source.usesModRM = false)
    (hparts : o.source.parts.isEmpty = true) (p : Processor) (fields : Fields) :
    Decode.readOperand p fields o = .done fields := by
  unfold Decode.readOperand
  cases hsource : o.source with
  | unused | constant | register | stringPointer | segment | stack | condition => rfl
  | immediate | immediate2 | relative | absolute | farPointer =>
    rw [hsource] at hparts
    cases hparts
  | reg | rm | rmRegister | regSegment | regControl | regDebug | regTest =>
    rw [hsource] at huses
    cases huses

/-- Read the operands that are left. -/
def readLeft (p : Processor) (operation : Operation) (operands : Slots Operand)
    (left : List Operand) (fields : Fields) : Fetch Body := do
  let fields ← left.foldlM (Decode.readOperand p) fields
  return ⟨operation, operands, fields⟩

/-- Read the operands that are left, and before them the ModRM byte if one of them needs it. -/
def readPending (p : Processor) (operation : Operation) (operands : Slots Operand)
    (left : List Operand) (fields : Fields) : Fetch Body :=
  if left.any (·.source.usesModRM) then do
    readLeft p operation operands left { fields with modrmByte := ← .byte }
  else readLeft p operation operands left fields

section Plans

variable {p : Processor} {operation : Operation} {operands : Slots Operand} {left : List Operand}
  {o : Operand} {fields : Fields}

lemma readLeft_cons : readLeft p operation operands (o :: left) fields =
    Decode.readOperand p fields o >>= readLeft p operation operands left := by
  rw [readLeft, List.foldlM_cons, Fetch.bind_assoc]
  rfl

/-- An operand that needs no ModRM byte can be read before that byte. -/
lemma readPending_cons (ho : o.source.usesModRM = false)
    (h : modrmFirst ((o :: left).map (·.source)) = true) :
    modrmFirst (left.map (·.source)) = true ∧
      readPending p operation operands (o :: left) fields =
        Decode.readOperand p fields o >>= readPending p operation operands left := by
  rw [List.map_cons, modrmFirst, ho, Bool.false_or, Bool.and_eq_true, Bool.or_eq_true] at h
  refine ⟨h.2, ?_⟩
  rw [readPending, List.any_cons, ho, Bool.false_or]
  rcases h.1 with hempty | hnone
  · -- The operand takes no bytes, with or without the ModRM byte among the fields.
    have hread : ∀ fields, Decode.readOperand p fields o = .done fields :=
      readOperand_of_isEmpty_parts ho hempty p
    rw [hread]
    change _ = readPending p operation operands left fields
    rw [readPending]
    simp only [readLeft_cons, hread]
    rfl
  · have hleft : left.any (·.source.usesModRM) = false := by
      rw [← Bool.not_eq_true', ← hnone, List.any_map]
      rfl
    have hpending : readPending p operation operands left = readLeft p operation operands left := by
      funext fields
      rw [readPending, hleft]
      rfl
    rw [hpending, hleft, ← readLeft_cons]
    rfl

lemma readEntry_form (mode : Mode) (seen : Prefixes) (f : Form) :
    let fields := Decode.startFields mode seen 0
    let operands := f.operands.map (·.instantiate fields.operandSize)
    Decode.readEntry p (Decode.startFields mode seen) (.form f) =
      readPending p f.operation operands operands.toList fields := by
  intro fields operands
  have huses : operands.toList.any (·.source.usesModRM) = f.usesModRM := rfl
  rw [Decode.readEntry, Decode.readForm, readPending, huses]
  cases f.usesModRM <;> rfl

lemma bind_listed (select : UInt8 → Option Form) (next : Form × UInt8 → Fetch Body) :
    (do
      let b ← Fetch.byte
      return (← Decode.listed (select b), b)) >>= next =
    Fetch.byte >>= fun b => Decode.listed (select b) >>= fun f => next (f, b) := by
  rw [Fetch.bind_assoc]
  simp only [Fetch.bind_assoc]
  rfl

lemma readEntry_group (start : UInt8 → Fields) (rows : Group) :
    Decode.readEntry p start (.group rows) = Fetch.byte >>= fun b =>
      Decode.listed (rows.get (ModRM.ofByte b).reg) >>= fun f =>
        Decode.readOperands p f (start b) :=
  bind_listed (fun b => rows.get (ModRM.ofByte b).reg) _

lemma readEntry_coprocessor (start : UInt8 → Fields) (rows : EscapeGroup) :
    Decode.readEntry p start (.coprocessor rows) = Fetch.byte >>= fun b =>
      Decode.listed (rows.get (ModRM.ofByte b).escapeRow) >>= fun f =>
        Decode.readOperands p f (start b) :=
  bind_listed (fun b => rows.get (ModRM.ofByte b).escapeRow) _

end Plans

section States

variable {σ : Type}

/-- The steps that the machine has yet to take, at most. -/
def State.rank (s : State σ) : Nat :=
  match s.phase with
  | .lead _ => 8 + (maxLength - s.recorder.length)
  | .resolve _ (.escape _) => 7
  | .resolve _ (.group _) | .resolve _ (.coprocessor _) => 6
  | .resolve _ _ => 5
  | .operands _ _ left _ => left.length + 1
  | .stopped _ | .broken => 0

lemma rank_ofEntry (r : Recorder σ) (hasModRM : Bool) (tally : Tally) (fields : Fields)
    (e : Entry) : (⟨r, hasModRM, tally, .resolve fields (.ofEntry e)⟩ : State σ).rank ≤ 6 := by
  cases e with
  | undefined | form => exact Nat.le_succ 5
  | group | coprocessor => exact Nat.le_refl 6

lemma rank_ofForm (r : Recorder σ) (hasModRM : Bool) (tally : Tally) (fields : Fields)
    (f : Option Form) :
    (⟨r, hasModRM, tally, .resolve fields (.ofForm f)⟩ : State σ).rank = 5 := by
  cases f <;> rfl

/-- The buffer has room for what is recorded, and nothing has been done too often. -/
structure Bounded (r : Recorder σ) (t : Tally) : Prop where
  length_le : r.length ≤ maxLength
  leads_le : t.leads ≤ maxLength
  escapes_le : t.escapes ≤ 1
  groups_le : t.groups ≤ 1
  modrms_le : t.modrms ≤ 1

end States

variable {σ : Type} [ByteSource σ]

/-- The machine is on its way to an outcome: what it has yet to do is the rest of a plan that has
this outcome. -/
inductive Agrees (mode : Mode) (out : Except Fault Body × Tape σ) : State σ → Prop
  | lead {r : Recorder σ} {seen : Prefixes} (bounded : Bounded r { leads := r.length })
      (plan : (Decode.readPrefixed mode (maxLength - r.length) seen).run r.tape = out) :
      Agrees mode out ⟨r, false, { leads := r.length }, .lead seen⟩
  | escape {r : Recorder σ} {leads : Nat} {seen : Prefixes} {b : UInt8}
      (bounded : Bounded r { leads }) (found : mode.processor.lead b = .escape)
      (plan : (Decode.readLead mode.processor (Decode.startFields mode seen) .escape).run r.tape =
        out) :
      Agrees mode out
        ⟨r, false, { leads }, .resolve (Decode.startFields mode seen 0) (.escape secondRows)⟩
  | entry {r : Recorder σ} {leads escapes : Nat} {seen : Prefixes} {opcode : List UInt8} {e : Entry}
      (bounded : Bounded r { leads, escapes }) (found : mode.processor.lookup? opcode = some e)
      (plan : (Decode.readEntry mode.processor (Decode.startFields mode seen) e).run r.tape = out) :
      Agrees mode out
        ⟨r, false, { leads, escapes }, .resolve (Decode.startFields mode seen 0) (.ofEntry e)⟩
  | form {r : Recorder σ} {leads escapes : Nat} {fields : Fields} {f : Option Form}
      (bounded : Bounded r ⟨leads, escapes, 1, 1⟩)
      (plan : (Decode.listed f >>= fun f =>
        Decode.readOperands mode.processor f fields).run r.tape = out) :
      Agrees mode out ⟨r, true, ⟨leads, escapes, 1, 1⟩, .resolve fields (.ofForm f)⟩
  | pending {r : Recorder σ} {leads escapes : Nat} {operation : Operation}
      {operands : Slots Operand} {left : List Operand} {fields : Fields}
      (bounded : Bounded r { leads, escapes }) (first : modrmFirst (left.map (·.source)) = true)
      (plan : (readPending mode.processor operation operands left fields).run r.tape = out) :
      Agrees mode out ⟨r, false, { leads, escapes }, .operands operation operands left fields⟩
  | settled {r : Recorder σ} {leads escapes groups : Nat} {operation : Operation}
      {operands : Slots Operand} {left : List Operand} {fields : Fields}
      (bounded : Bounded r ⟨leads, escapes, groups, 1⟩)
      (plan : (readLeft mode.processor operation operands left fields).run r.tape = out) :
      Agrees mode out
        ⟨r, true, ⟨leads, escapes, groups, 1⟩, .operands operation operands left fields⟩
  | stopped {r : Recorder σ} {hasModRM : Bool} {tally : Tally} {result : Except Fault Body}
      (bounded : Bounded r tally) (eq : (result, r.tape) = out) :
      Agrees mode out ⟨r, hasModRM, tally, .stopped result⟩

/-- The machine is on its way to an outcome and has fewer than `n` steps to take. -/
def Nears (mode : Mode) (out : Except Fault Body × Tape σ) (n : Nat) (s : State σ) : Prop :=
  Agrees mode out s ∧ s.rank < n

section Steps

variable {mode : Mode} {out : Except Fault Body × Tape σ}

/-- A plan that is played stops the machine or hands over to what follows. -/
lemma nears_after {α : Type} {s : State σ} {plan : Fetch α} {f : α → Fetch Body}
    {next : α → State σ → State σ} {n : Nat} (hn : 0 < n) (bounded : Bounded s.recorder s.tally)
    (hplan : (plan >>= f).run s.recorder.tape = out)
    (hnext : ∀ a r, Bounded r s.tally → plan.run s.recorder.tape = (.ok a, r.tape) →
      (f a).run r.tape = out → Nears mode out n (next a { s with recorder := r })) :
    Nears mode out n (s.after plan next) := by
  obtain ⟨r, hplay, htape, hlength⟩ := Recorder.exists_play_eq plan bounded.length_le
  have hbounded : Bounded r s.tally := { bounded with length_le := hlength }
  rw [State.after, hplay]
  cases hrun : plan.run s.recorder.tape with
  | mk result t =>
    rw [hrun] at htape
    obtain rfl : r.tape = t := htape
    cases result with
    | error e =>
      rw [Fetch.run_bind_of_error hrun] at hplan
      exact ⟨.stopped hbounded hplan, hn⟩
    | ok a =>
      rw [Fetch.run_bind_of_ok hrun] at hplan
      exact hnext a r hbounded hrun hplan

lemma nears_withModRM {r : Recorder σ} {leads escapes groups : Nat} {phase : Phase}
    {fields : Fields} {f : UInt8 → Fetch Body} {next : Fields → State σ → State σ} {n : Nat}
    (hn : 0 < n) (bounded : Bounded r ⟨leads, escapes, groups, 0⟩)
    (plan : (Fetch.byte >>= f).run r.tape = out)
    (hnext : ∀ b r', Bounded r' ⟨leads, escapes, groups, 1⟩ → (f b).run r'.tape = out →
      Nears mode out n (next { fields with modrmByte := b }
        ⟨r', true, ⟨leads, escapes, groups, 1⟩, phase⟩)) :
    Nears mode out n
      ((⟨r, false, ⟨leads, escapes, groups, 0⟩, phase⟩ : State σ).withModRM fields next) := by
  have hbounded : Bounded r ⟨leads, escapes, groups, 1⟩ :=
    { bounded with modrms_le := Nat.le_refl 1 }
  rw [State.withModRM, if_neg Bool.false_ne_true]
  apply nears_after hn hbounded plan
  intro b r' bounded' _ hplan
  exact hnext b r' bounded' hplan

lemma length_of_run_byte {r r' : Recorder σ} {b : UInt8} (h : r.length ≤ maxLength)
    (h' : r'.length ≤ maxLength) (hrun : Fetch.byte.run r.tape = (.ok b, r'.tape)) :
    r'.length = r.length + 1 := by
  obtain ⟨read, hread, htaken⟩ := Fetch.exists_leads_of_run hrun
  have hone : read.length = 1 := by
    cases hread with
    | take bytes hdone =>
      obtain ⟨rfl, -⟩ := Fetch.leads_done_iff.mp hdone
      rw [List.append_nil, Vector.length_toList]
  have hlength := congrArg List.length htaken
  rw [List.length_append, hone] at hlength
  rwa [← Recorder.length_recorded h, ← Recorder.length_recorded h']

lemma run_byte_of_full {r : Recorder σ} (h : r.length = maxLength) :
    Fetch.byte.run r.tape = (.error (.tooLong maxLength), r.tape) := by
  have htaken : r.tape.taken.length = r.length := Recorder.length_recorded (Nat.le_of_eq h)
  rw [Fetch.byte, Fetch.run, htaken, if_pos (by omega)]

/-! ## One step -/

lemma nears_step_lead {r : Recorder σ} {seen : Prefixes} (bounded : Bounded r { leads := r.length })
    (plan : (Decode.readPrefixed mode (maxLength - r.length) seen).run r.tape = out) :
    Nears mode out (8 + (maxLength - r.length))
      (step mode ⟨r, false, { leads := r.length }, .lead seen⟩) := by
  unfold step
  dsimp only
  cases hroom : maxLength - r.length with
  | zero =>
    -- The buffer is full. The machine asks for another byte and is refused; the plan is at its end.
    have hfull := run_byte_of_full (Nat.le_antisymm bounded.length_le (Nat.le_of_sub_eq_zero hroom))
    rw [hroom] at plan
    apply nears_after (by omega) bounded (f := fun _ => .overlong)
    · rw [Fetch.run_bind_of_error hfull]
      exact plan
    · intro b r' _ hrun
      rw [hfull] at hrun
      cases hrun
  | succ room =>
    rw [hroom, Decode.readPrefixed_succ] at plan
    apply nears_after (by omega) bounded plan
    intro b r' bounded' hrun hplan
    have hlength := length_of_run_byte bounded.length_le bounded'.length_le hrun
    have hbounded : Bounded r' { leads := r'.length } :=
      { bounded' with leads_le := bounded'.length_le }
    rw [lookup_eq (getElem?_firstRows mode.processor b)]
    dsimp only at hplan ⊢
    rw [← hlength]
    cases hlead : mode.processor.lead b with
    | modifier m =>
      have hleft : room = maxLength - r'.length := by omega
      rw [hlead, hleft] at hplan
      exact ⟨.lead hbounded hplan, show 8 + (maxLength - r'.length) < _ by omega⟩
    | escape =>
      rw [hlead] at hplan
      exact ⟨.escape hbounded hlead hplan, show 7 < 8 + (room + 1) by omega⟩
    | opcode e =>
      have hfound := Processor.lookup?_eq_some_iff.mpr (.inl ⟨b, rfl, hlead⟩)
      have hrank := rank_ofEntry r' false { leads := r'.length } (Decode.startFields mode seen 0) e
      rw [hlead] at hplan
      rw [Row.ofLead, phaseOfLead_ofEntry]
      exact ⟨.entry hbounded hfound hplan, by omega⟩

lemma nears_step_escape {r : Recorder σ} {leads : Nat} {seen : Prefixes} {b : UInt8}
    (bounded : Bounded r { leads }) (found : mode.processor.lead b = .escape)
    (plan : (Decode.readLead mode.processor (Decode.startFields mode seen) .escape).run r.tape =
      out) :
    Nears mode out 7 (step mode
      ⟨r, false, { leads }, .resolve (Decode.startFields mode seen 0) (.escape secondRows)⟩) := by
  have hbounded : Bounded r { leads, escapes := 1 } := { bounded with escapes_le := Nat.le_refl 1 }
  unfold step State.follow
  dsimp only
  apply nears_after (by decide) hbounded plan
  intro c r' bounded' _ hplan
  have hfound := Processor.lookup?_eq_some_iff.mpr (.inr ⟨b, c, rfl, found, rfl⟩)
  rw [lookup_eq (getElem?_secondRows c)]
  exact ⟨.entry bounded' hfound hplan, Nat.lt_succ_of_le (rank_ofEntry ..)⟩

lemma nears_step_entry {r : Recorder σ} {leads escapes : Nat} {seen : Prefixes}
    {opcode : List UInt8} {e : Entry} (bounded : Bounded r { leads, escapes })
    (found : mode.processor.lookup? opcode = some e)
    (plan : (Decode.readEntry mode.processor (Decode.startFields mode seen) e).run r.tape = out) :
    let s : State σ :=
      ⟨r, false, { leads, escapes }, .resolve (Decode.startFields mode seen 0) (.ofEntry e)⟩
    Nears mode out s.rank (step mode s) := by
  have hgroups : Bounded r ⟨leads, escapes, 1, 0⟩ := { bounded with groups_le := Nat.le_refl 1 }
  unfold step
  dsimp only
  cases e with
  | undefined => exact ⟨.stopped bounded plan, show 0 < 5 by decide⟩
  | form f =>
    have hlisted : f ∈ listedForms := mem_listedForms (m := 0) found rfl
    rw [readEntry_form] at plan
    exact ⟨.pending bounded (modrmFirst_of_mem_listedForms hlisted) plan, show 4 < 5 by decide⟩
  | group rows =>
    rw [readEntry_group] at plan
    rw [Row.ofEntry, State.follow]
    apply nears_withModRM (show 0 < 6 by decide) hgroups plan
    intro b r' bounded' hplan
    rw [lookup_eq (getElem?_groupIndex rows b)]
    exact ⟨.form bounded' hplan, by rw [rank_ofForm]; decide⟩
  | coprocessor rows =>
    rw [readEntry_coprocessor] at plan
    rw [Row.ofEntry, State.follow]
    apply nears_withModRM (show 0 < 6 by decide) hgroups plan
    intro b r' bounded' hplan
    rw [lookup_eq (getElem?_coprocessorIndex rows b)]
    exact ⟨.form bounded' hplan, by rw [rank_ofForm]; decide⟩

lemma nears_step_form {r : Recorder σ} {leads escapes : Nat} {fields : Fields} {f : Option Form}
    (bounded : Bounded r ⟨leads, escapes, 1, 1⟩)
    (plan : (Decode.listed f >>= fun f =>
      Decode.readOperands mode.processor f fields).run r.tape = out) :
    let s : State σ := ⟨r, true, ⟨leads, escapes, 1, 1⟩, .resolve fields (.ofForm f)⟩
    Nears mode out s.rank (step mode s) := by
  cases f with
  | none => exact ⟨.stopped bounded plan, show 0 < 5 by decide⟩
  | some f => exact ⟨.settled bounded plan, show 4 < 5 by decide⟩

lemma operand_eq_after {p : Processor} {s : State σ} {o : Operand}
    (h : o.source.usesModRM = false ∨ s.hasModRM = true) (fields : Fields) (next : Fields → Phase) :
    s.operand p fields o next = s.after (Decode.readOperand p fields o)
      fun fields s => { s with phase := next fields } := by
  unfold State.operand
  dsimp only
  split
  · next huses =>
    rcases h with hnone | hread
    · rw [huses] at hnone
      cases hnone
    · rw [State.withModRM, if_pos hread]
  · rfl

lemma nears_step_settled {r : Recorder σ} {leads escapes groups : Nat} {operation : Operation}
    {operands : Slots Operand} {left : List Operand} {fields : Fields}
    (bounded : Bounded r ⟨leads, escapes, groups, 1⟩)
    (plan : (readLeft mode.processor operation operands left fields).run r.tape = out) :
    let s : State σ :=
      ⟨r, true, ⟨leads, escapes, groups, 1⟩, .operands operation operands left fields⟩
    Nears mode out s.rank (step mode s) := by
  cases left with
  | nil => exact ⟨.stopped bounded plan, show 0 < 1 by decide⟩
  | cons o left =>
    rw [readLeft_cons] at plan
    unfold step
    dsimp only
    rw [operand_eq_after (.inr rfl)]
    apply nears_after (Nat.succ_pos _) bounded plan
    intro fields r' bounded' _ hplan
    exact ⟨.settled bounded' hplan, Nat.lt_succ_self (left.length + 1)⟩

lemma nears_step_pending {r : Recorder σ} {leads escapes : Nat} {operation : Operation}
    {operands : Slots Operand} {left : List Operand} {fields : Fields}
    (bounded : Bounded r { leads, escapes }) (first : modrmFirst (left.map (·.source)) = true)
    (plan : (readPending mode.processor operation operands left fields).run r.tape = out) :
    let s : State σ := ⟨r, false, { leads, escapes }, .operands operation operands left fields⟩
    Nears mode out s.rank (step mode s) := by
  cases left with
  | nil => exact ⟨.stopped bounded plan, show 0 < 1 by decide⟩
  | cons o left =>
    unfold step
    dsimp only
    cases huses : o.source.usesModRM with
    | false =>
      obtain ⟨first', hcons⟩ := readPending_cons huses first
      rw [hcons] at plan
      rw [operand_eq_after (.inl huses)]
      apply nears_after (Nat.succ_pos _) bounded plan
      intro fields r' bounded' _ hplan
      exact ⟨.pending bounded' first' hplan, Nat.lt_succ_self (left.length + 1)⟩
    | true =>
      rw [readPending, List.any_cons, huses, Bool.true_or, if_pos rfl] at plan
      unfold State.operand
      dsimp only
      rw [huses, if_pos rfl]
      apply nears_withModRM (Nat.succ_pos _) bounded plan
      intro b r' bounded' hplan
      rw [readLeft_cons] at hplan
      apply nears_after (Nat.succ_pos _) bounded' hplan
      intro fields r'' bounded'' _ hleft
      exact ⟨.settled bounded'' hleft, Nat.lt_succ_self (left.length + 1)⟩

/-- Unless the machine has stopped, a step brings it nearer to the same outcome. -/
theorem nears_step {s : State σ} (h : Agrees mode out s) :
    (∃ result, s.phase = .stopped result) ∨ Nears mode out s.rank (step mode s) := by
  cases h with
  | lead bounded plan => exact .inr (nears_step_lead bounded plan)
  | escape bounded found plan => exact .inr (nears_step_escape bounded found plan)
  | entry bounded found plan => exact .inr (nears_step_entry bounded found plan)
  | form bounded plan => exact .inr (nears_step_form bounded plan)
  | pending bounded first plan => exact .inr (nears_step_pending bounded first plan)
  | settled bounded plan => exact .inr (nears_step_settled bounded plan)
  | stopped bounded eq => exact .inl ⟨_, rfl⟩

lemma agrees_step {s : State σ} (h : Agrees mode out s) : Agrees mode out (step mode s) := by
  rcases nears_step h with ⟨result, hstopped⟩ | hnears
  · have hstay : step mode s = s := by
      rw [step, hstopped]
    rwa [hstay]
  · exact hnears.1

lemma agrees_iterate {s : State σ} (h : Agrees mode out s) (n : Nat) :
    Agrees mode out ((step mode)^[n] s) := by
  induction n with
  | zero => exact h
  | succ n ih =>
    rw [Function.iterate_succ_apply']
    exact agrees_step ih

lemma exists_stopped {s : State σ} (h : Agrees mode out s) :
    ∃ n ≤ s.rank, ∃ result, ((step mode)^[n] s).phase = .stopped result := by
  induction hrank : s.rank using Nat.strong_induction_on generalizing s with
  | _ rank ih =>
    rcases nears_step h with hstopped | ⟨hagrees, hlt⟩
    · exact ⟨0, Nat.zero_le rank, hstopped⟩
    · obtain ⟨n, hn, hstopped⟩ := ih _ (hrank ▸ hlt) hagrees rfl
      refine ⟨n + 1, by omega, ?_⟩
      rwa [Function.iterate_succ_apply]

lemma Agrees.eq_of_stopped {s : State σ} (h : Agrees mode out s) {result : Except Fault Body}
    (hstopped : s.phase = .stopped result) : out = (result, s.recorder.tape) := by
  cases h with
  | stopped bounded eq =>
    cases hstopped
    exact eq.symm
  | _ => cases hstopped

end Steps

lemma agrees_start (mode : Mode) (source : σ) :
    Agrees mode ((Decode.readBody mode).run ⟨source, []⟩) (start source) :=
  .lead ⟨Nat.zero_le _, Nat.zero_le _, Nat.zero_le _, Nat.zero_le _, Nat.zero_le _⟩ rfl

/-! ## Bounds -/

/-- The row is no prefix, and a table that it leads to has a row for every number that is looked up
in it. -/
def Row.IsSound : Row → Prop
  | .undefined | .form _ => True
  | .modifier _ => False
  | .escape rows => rows.length = 256
  | .group rows => rows.length = 8
  | .coprocessor rows => rows.length = 72

/-- No row has been looked up, and no byte written, where there is no place for it, and a row that
the machine follows is sound. -/
def Phase.IsSound : Phase → Prop
  | .lead _ | .operands .. | .stopped _ => True
  | .resolve _ row => row.IsSound
  | .broken => False

lemma isSound_escape : (Row.escape secondRows).IsSound := by
  rw [Row.IsSound, secondRows, List.length_map, Vector.length_toList]

lemma isSound_ofForm (f : Option Form) : (Row.ofForm f).IsSound := by
  cases f with
  | none => trivial
  | some f => trivial

lemma isSound_ofEntry (e : Entry) : (Row.ofEntry e).IsSound := by
  cases e with
  | undefined => trivial
  | form f => trivial
  | group rows => simp [Row.ofEntry, Row.IsSound]
  | coprocessor rows => simp [Row.ofEntry, Row.IsSound]

/-- No bound of the machine is passed. -/
structure State.InBounds {σ : Type} (s : State σ) : Prop where
  isSound : s.phase.IsSound
  length_le : s.recorder.length ≤ 15
  leads_le : s.tally.leads ≤ 15
  escapes_le : s.tally.escapes ≤ 1
  groups_le : s.tally.groups ≤ 1
  modrms_le : s.tally.modrms ≤ 1

lemma Agrees.inBounds {mode : Mode} {out : Except Fault Body × Tape σ} {s : State σ}
    (h : Agrees mode out s) : s.InBounds := by
  cases h with
  | lead bounded plan => exact { bounded with isSound := trivial }
  | escape bounded found plan => exact { bounded with isSound := isSound_escape }
  | entry bounded found plan => exact { bounded with isSound := isSound_ofEntry _ }
  | form bounded plan => exact { bounded with isSound := isSound_ofForm _ }
  | pending bounded first plan => exact { bounded with isSound := trivial }
  | settled bounded plan => exact { bounded with isSound := trivial }
  | stopped bounded eq => exact { bounded with isSound := trivial }

/-- Whatever a source answers, the machine stops after at most 23 steps, and it stops with what
decoding from the source gives. On its way it has taken at most 15 first bytes, followed at most one
escape and one group, asked for at most one ModRM byte and recorded at most 15 bytes. It has looked
up no row, and written no byte, where there is no place for it, and behind the table of first bytes
it has come upon no prefix. An instruction has from 1 to 15 bytes. -/
theorem stops_with_decodeFrom (mode : Mode) (source : σ) (address : UInt32) :
    (firstRows mode.processor).length = 256 ∧
    (∀ n, ((step mode)^[n] (start source)).InBounds) ∧
    (∃ n ≤ 23, ∃ result,
      let s := (step mode)^[n] (start source)
      s.phase = .stopped result ∧
      decodeFrom mode source address =
        (.ofRun address s.recorder.length result, s.recorder.source)) ∧
    ∀ i, (decodeFrom mode source address).1 = .ok i → 1 ≤ i.length ∧ i.length ≤ 15 := by
  have hagrees := agrees_iterate (agrees_start mode source)
  obtain ⟨n, hn, result, hstopped⟩ := exists_stopped (agrees_start mode source)
  have hlength := (hagrees n).inBounds.length_le
  have hrun := (hagrees n).eq_of_stopped hstopped
  have hdecode := decodeFrom_eq hrun address
  refine ⟨?_, fun n => (hagrees n).inBounds, ⟨n, hn, result, hstopped, ?_⟩, ?_⟩
  · rw [firstRows, List.length_map, Vector.length_toList]
  · rwa [Recorder.length_recorded hlength] at hdecode
  · intro i hi
    rw [hdecode] at hi
    cases result with
    | error e => cases hi
    | ok body =>
      obtain ⟨read, hread, htaken⟩ := Fetch.exists_leads_of_run hrun
      rw [List.nil_append] at htaken
      obtain rfl := Except.ok.inj hi
      change 1 ≤ (Recorder.recorded _).length ∧ (Recorder.recorded _).length ≤ 15
      refine ⟨?_, ?_⟩
      · have hone := Decode.one_le_length_of_leads hread
        rwa [← htaken] at hone
      · rwa [Recorder.length_recorded hlength]

/-- A source that contradicts itself: a byte alone is always the opcode of a move, and four bytes
together are four prefixes. The move has five bytes. -/
theorem stops_with_decodeFrom_contrary :
    let contrary : ByteSource Unit :=
      ⟨fun count _ => (some (Vector.replicate count (if count = 1 then 0xB8 else 0x66)), ())⟩
    ∃ i, (@decodeFrom Unit contrary .flat () 0).1 = .ok i ∧ i.length = 5 ∧ i.length ≤ 15 := by
  intro contrary
  obtain ⟨-, -, -, hlength⟩ := @stops_with_decodeFrom Unit contrary .flat () 0
  have hspan : (@decodeFrom Unit contrary .flat () 0).1.span = 5 := by decide +kernel
  cases h : (@decodeFrom Unit contrary .flat () 0).1 with
  | ok i =>
    rw [h] at hspan
    exact ⟨i, rfl, hspan, (hlength i h).2⟩
  | error e =>
    rw [h] at hspan
    cases hspan

end X86Disassembly.Stepwise
