import X86Disassembly.Proofs.Reading

/-!
# Decoding step by step

Decoding as a machine that takes one step after another and that nothing holds in bounds by itself.
It goes around while it finds prefixes, and around again while the row it has found leads to another
table. Any table may hold rows of any kind and number, and a row is looked up by a number that may
be too large. Bytes are written into a buffer that may be too short for them. The ModRM byte is read
when the first operand comes up that needs it. That no bound is passed is a matter of the tables and
of the order of the steps.
-/

namespace X86Disassembly

namespace Fetch

variable {α β σ : Type} [ByteSource σ]

lemma run_bind_of_ok {plan : Fetch α} {t t' : Tape σ} {a : α} (h : plan.run t = (.ok a, t'))
    (f : α → Fetch β) : (plan >>= f).run t = (f a).run t' := by
  induction plan generalizing t with
  | done b =>
    obtain ⟨rfl, rfl⟩ : b = a ∧ t = t' := by simpa [Fetch.run] using h
    rfl
  | undefined => cases h
  | overlong => cases h
  | take count next ih =>
    change (Fetch.take count fun bytes => (next bytes).bind f).run t = _
    rw [Fetch.run] at h ⊢
    split at h
    · cases h
    · next hroom =>
      rw [if_neg hroom]
      split at h
      · cases h
      · next bytes s hfetch => exact ih bytes h

lemma run_bind_of_error {plan : Fetch α} {t t' : Tape σ} {e : Fault}
    (h : plan.run t = (.error e, t')) (f : α → Fetch β) : (plan >>= f).run t = (.error e, t') := by
  induction plan generalizing t with
  | done b => cases h
  | undefined =>
    cases h
    rfl
  | overlong =>
    cases h
    rfl
  | take count next ih =>
    change (Fetch.take count fun bytes => (next bytes).bind f).run t = _
    rw [Fetch.run] at h ⊢
    split at h
    · next hfull =>
      rw [if_pos hfull]
      cases h
      rfl
    · next hroom =>
      rw [if_neg hroom]
      split at h
      · cases h
        rfl
      · next bytes s hfetch => exact ih bytes h

lemma exists_leads_of_run {plan : Fetch α} {t t' : Tape σ} {a : α} (h : plan.run t = (.ok a, t')) :
    ∃ read, plan.Leads read (.done a) ∧ t'.taken = t.taken ++ read := by
  induction plan generalizing t with
  | done b =>
    obtain ⟨rfl, rfl⟩ : b = a ∧ t = t' := by simpa [Fetch.run] using h
    exact ⟨[], .refl _, (List.append_nil _).symm⟩
  | undefined => cases h
  | overlong => cases h
  | take count next ih =>
    rw [Fetch.run] at h
    split at h
    · cases h
    · split at h
      · cases h
      · next bytes s hfetch =>
        obtain ⟨read, hread, htaken⟩ := ih bytes h
        exact ⟨bytes.toList ++ read, .take bytes hread, by rw [htaken, List.append_assoc]⟩

end Fetch

namespace Stepwise

/-- A row of any table. -/
inductive Row
  | undefined
  | modifier (p : Prefix)
  | form (f : Form)
  | escape (rows : List Row)
  | group (rows : List Row)
  | coprocessor (rows : List Row)

namespace Row

def ofForm : Option Form → Row
  | none => undefined
  | some f => form f

def ofEntry : Entry → Row
  | .undefined => undefined
  | .form f => form f
  | .group rows => group (rows.toList.map ofForm)
  | .coprocessor rows => coprocessor (rows.toList.map ofForm)

end Row

/-- The table of the bytes behind an escape. -/
def secondRows : List Row :=
  TwoByte.map.toList.map Row.ofEntry

def Row.ofLead : Lead → Row
  | .modifier p => modifier p
  | .escape => escape secondRows
  | .opcode e => ofEntry e

/-- The table of first bytes. -/
def firstRows (p : Processor) : List Row :=
  p.leads.toList.map Row.ofLead

/-- The number of the row that a ModRM byte selects in a group. -/
def groupIndex (modrm : UInt8) : Nat :=
  modrm.toNat / 8 % 8

/-- The number of the row that a ModRM byte selects for the coprocessor. -/
def coprocessorIndex (modrm : UInt8) : Nat :=
  if modrm.toNat / 64 = 3 then 8 + modrm.toNat % 64 else groupIndex modrm

lemma getElem?_map_toList {α β : Type} {n : Nat} (rows : Vector α n) (f : α → β) (i : Fin n) :
    (rows.toList.map f)[i.val]? = some (f (rows.get i)) := by
  have hlt : i.val < rows.toList.length := by
    rw [Vector.length_toList]
    exact i.isLt
  rw [List.getElem?_map, List.getElem?_eq_getElem hlt]
  rfl

lemma getElem?_firstRows (p : Processor) (b : UInt8) :
    (firstRows p)[b.toNat]? = some (.ofLead (p.lead b)) :=
  getElem?_map_toList p.leads Row.ofLead b.toFin

lemma getElem?_secondRows (b : UInt8) :
    secondRows[b.toNat]? = some (.ofEntry (TwoByte.entry b)) :=
  getElem?_map_toList TwoByte.map Row.ofEntry b.toFin

lemma getElem?_groupIndex (rows : Group) (b : UInt8) :
    (rows.toList.map Row.ofForm)[groupIndex b]? =
      some (.ofForm (rows.get (ModRM.ofByte b).reg)) :=
  getElem?_map_toList rows Row.ofForm (ModRM.ofByte b).reg

lemma coprocessorIndex_eq (b : UInt8) :
    coprocessorIndex b = (ModRM.ofByte b).escapeRow.val := by
  have htable : ∀ n < 256, coprocessorIndex (UInt8.ofNat n) =
      (ModRM.ofByte (UInt8.ofNat n)).escapeRow.val := by decide +kernel
  have hbyte := htable b.toNat b.toNat_lt
  rwa [UInt8.ofNat_toNat] at hbyte

lemma getElem?_coprocessorIndex (rows : EscapeGroup) (b : UInt8) :
    (rows.toList.map Row.ofForm)[coprocessorIndex b]? =
      some (.ofForm (rows.get (ModRM.ofByte b).escapeRow)) := by
  rw [coprocessorIndex_eq]
  exact getElem?_map_toList rows Row.ofForm (ModRM.ofByte b).escapeRow

/-- A source, and a buffer of which the first places hold the bytes that came from it. -/
structure Recorder (σ : Type) where
  source : σ
  buffer : Vector UInt8 maxLength
  length : Nat

/-- Write bytes from a place on, unless there are not as many places. -/
def store {n : Nat} : List UInt8 → Nat → Vector UInt8 n → Option (Vector UInt8 n)
  | [], _, buffer => some buffer
  | b :: rest, i, buffer =>
    if h : i < n then store rest (i + 1) (buffer.set i b h) else none

namespace Recorder

variable {α σ : Type}

def recorded (r : Recorder σ) : List UInt8 :=
  r.buffer.toList.take r.length

def tape (r : Recorder σ) : Tape σ :=
  ⟨r.source, r.recorded⟩

/-- Play a plan. There is no result if a byte cannot be written. -/
def play [ByteSource σ] : Fetch α → Recorder σ → Option (Except Fault α) × Recorder σ
  | .done a, r => (some (.ok a), r)
  | .undefined, r => (some (.error (.undefined r.recorded)), r)
  | .overlong, r => (some (.error (.tooLong maxLength)), r)
  | .take count next, r =>
    if maxLength < r.length + count then (some (.error (.tooLong maxLength)), r)
    else
      match ByteSource.fetch count r.source with
      | (none, source) =>
        (some (.error (.truncated (r.length + count) r.length)), { r with source })
      | (some bytes, source) =>
        match store bytes.toList r.length r.buffer with
        | none => (none, { r with source })
        | some buffer => play (next bytes) ⟨source, buffer, r.length + count⟩

end Recorder

lemma exists_store_eq {n : Nat} (bytes : List UInt8) {i : Nat} (buffer : Vector UInt8 n)
    (h : i + bytes.length ≤ n) :
    ∃ buffer', store bytes i buffer = some buffer' ∧
      buffer'.toList.take (i + bytes.length) = buffer.toList.take i ++ bytes := by
  induction bytes generalizing i buffer with
  | nil => exact ⟨buffer, rfl, by simp⟩
  | cons b bytes ih =>
    rw [List.length_cons] at h
    have hi : i < n := by omega
    obtain ⟨buffer', hstore, htake⟩ := ih (buffer.set i b hi) (i := i + 1) (by omega)
    refine ⟨buffer', by rw [store, dif_pos hi, hstore], ?_⟩
    have hset : (buffer.set i b hi).toList.take (i + 1) = buffer.toList.take i ++ [b] := by
      rw [Vector.toList_set, List.take_add_one, List.getElem?_set_self (by simpa using hi),
        List.take_set_of_le (Nat.le_refl i)]
      rfl
    rw [List.length_cons, ← Nat.add_assoc, Nat.add_right_comm, htake, hset, List.append_assoc,
      List.singleton_append]

namespace Recorder

variable {α σ : Type}

lemma length_recorded {r : Recorder σ} (h : r.length ≤ maxLength) :
    r.recorded.length = r.length := by
  rw [recorded, List.length_take, Vector.length_toList, Nat.min_eq_left h]

/-- Playing a plan is running it. No byte is ever written behind the end of the buffer. -/
lemma exists_play_eq [ByteSource σ] (plan : Fetch α) {r : Recorder σ} (h : r.length ≤ maxLength) :
    ∃ r', r.play plan = (some (plan.run r.tape).1, r') ∧ r'.tape = (plan.run r.tape).2 ∧
      r'.length ≤ maxLength := by
  induction plan generalizing r with
  | done a => exact ⟨r, rfl, rfl, h⟩
  | undefined => exact ⟨r, rfl, rfl, h⟩
  | overlong => exact ⟨r, rfl, rfl, h⟩
  | take count next ih =>
    have htaken : r.tape.taken.length = r.length := length_recorded h
    rw [play, Fetch.run, htaken]
    split
    · exact ⟨r, rfl, rfl, h⟩
    · next hroom =>
      have hsource : r.tape.source = r.source := rfl
      rw [hsource]
      cases ByteSource.fetch count r.source with
      | mk answer source =>
        cases answer with
        | none => exact ⟨{ r with source }, rfl, rfl, h⟩
        | some bytes =>
          have hlength : bytes.toList.length = count := bytes.length_toList
          obtain ⟨buffer, hstore, htake⟩ := exists_store_eq bytes.toList (i := r.length) r.buffer
            (by omega)
          have hnext := ih bytes (r := ⟨source, buffer, r.length + count⟩) (by dsimp only; omega)
          have htape : (⟨source, buffer, r.length + count⟩ : Recorder σ).tape =
              ⟨source, r.tape.taken ++ bytes.toList⟩ := by
            rw [hlength] at htake
            rw [tape, recorded, htake]
            rfl
          rw [htape] at hnext
          dsimp only
          rw [hstore]
          exact hnext

end Recorder

/-! ## Steps -/

/-- What the machine is about to do. -/
inductive Phase
  /-- Read a first byte, after some prefixes. -/
  | lead (seen : Prefixes)
  /-- Follow a row. -/
  | resolve (fields : Fields) (row : Row)
  /-- Read the operands that are left. -/
  | operands (operation : Operation) (operands : Slots Operand) (left : List Operand)
      (fields : Fields)
  | stopped (result : Except Fault Body)
  /-- A row was looked up, or a byte written, where there is no place for it. -/
  | broken

/-- How often something has been done. -/
structure Tally where
  /-- First bytes that have come. -/
  leads : Nat := 0
  /-- Escapes that have been followed, whether or not a byte came for them. -/
  escapes : Nat := 0
  /-- Groups, also those of the coprocessor, that have been followed. -/
  groups : Nat := 0
  /-- ModRM bytes that the source has been asked for. -/
  modrms : Nat := 0

structure State (σ : Type) where
  recorder : Recorder σ
  /-- The ModRM byte is among the fields. -/
  hasModRM : Bool := false
  tally : Tally := {}
  phase : Phase

/-- The machine before its first step. -/
def start {σ : Type} (source : σ) : State σ where
  recorder := ⟨source, Vector.replicate maxLength 0, 0⟩
  phase := .lead {}

/-- Go on with a row of a table. -/
def State.lookup {σ : Type} (s : State σ) (rows : List Row) (i : Nat) (next : Row → Phase) :
    State σ :=
  match rows[i]? with
  | none => { s with phase := .broken }
  | some row => { s with phase := next row }

lemma lookup_eq {σ : Type} {s : State σ} {rows : List Row} {i : Nat} {row : Row}
    (h : rows[i]? = some row) (next : Row → Phase) :
    s.lookup rows i next = { s with phase := next row } := by
  rw [State.lookup, h]

/-- The phase for a row of the table of first bytes. -/
def phaseOfLead (mode : Mode) (seen : Prefixes) : Row → Phase
  | .modifier m => .lead (seen.add m)
  | row => .resolve (Decode.startFields mode seen 0) row

lemma phaseOfLead_ofEntry (mode : Mode) (seen : Prefixes) (e : Entry) :
    phaseOfLead mode seen (.ofEntry e) =
      .resolve (Decode.startFields mode seen 0) (.ofEntry e) := by
  cases e <;> rfl

variable {α σ : Type} [ByteSource σ]

namespace State

/-- Play a plan and go on with its value. -/
def after (s : State σ) (plan : Fetch α) (next : α → State σ → State σ) : State σ :=
  match s.recorder.play plan with
  | (none, recorder) => { s with recorder, phase := .broken }
  | (some (.error e), recorder) => { s with recorder, phase := .stopped (.error e) }
  | (some (.ok a), recorder) => next a { s with recorder }

/-- Go on with the ModRM byte among the fields; it is read unless it has been read before. -/
def withModRM (s : State σ) (fields : Fields) (next : Fields → State σ → State σ) : State σ :=
  if s.hasModRM then next fields s
  else
    { s with tally.modrms := s.tally.modrms + 1 }.after .byte fun b s =>
      next { fields with modrmByte := b } { s with hasModRM := true }

/-- Follow a row: to its form, or to a row of the table that it leads to. -/
def follow (s : State σ) (fields : Fields) : Row → State σ
  | .undefined | .modifier _ =>
    { s with phase := .stopped (.error (.undefined s.recorder.recorded)) }
  | .form f =>
    let operands := f.operands.map (·.instantiate fields.operandSize)
    { s with phase := .operands f.operation operands operands.toList fields }
  | .escape rows =>
    { s with tally.escapes := s.tally.escapes + 1 }.after .byte fun b s =>
      s.lookup rows b.toNat (.resolve fields)
  | .group rows =>
    { s with tally.groups := s.tally.groups + 1 }.withModRM fields fun fields s =>
      s.lookup rows (groupIndex fields.modrmByte) (.resolve fields)
  | .coprocessor rows =>
    { s with tally.groups := s.tally.groups + 1 }.withModRM fields fun fields s =>
      s.lookup rows (coprocessorIndex fields.modrmByte) (.resolve fields)

/-- Read one operand, and before it the ModRM byte if it needs one. -/
def operand (p : Processor) (s : State σ) (fields : Fields) (o : Operand) (next : Fields → Phase) :
    State σ :=
  let read := fun (fields : Fields) (s : State σ) =>
    s.after (Decode.readOperand p fields o) fun fields s => { s with phase := next fields }
  if o.source.usesModRM then s.withModRM fields read else read fields s

end State

/-- One step. The machine stays where it has stopped. -/
def step (mode : Mode) (s : State σ) : State σ :=
  match s.phase with
  | .lead seen =>
    s.after .byte fun b s =>
      { s with tally.leads := s.tally.leads + 1 }.lookup (firstRows mode.processor) b.toNat
        (phaseOfLead mode seen)
  | .resolve fields row => s.follow fields row
  | .operands operation operands [] fields =>
    { s with phase := .stopped (.ok ⟨operation, operands, fields⟩) }
  | .operands operation operands (o :: left) fields =>
    s.operand mode.processor fields o (.operands operation operands left)
  | .stopped _ | .broken => s

end Stepwise

end X86Disassembly
