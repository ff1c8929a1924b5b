/-!
# Terminal control sequences

Text for a terminal may hold control characters and control sequences, which set colours and the
like and are not shown. `visible` is what is left where there is no terminal. A sequence starts with
an escape character and ends as its kind prescribes; one that does not end takes what follows for
its own.
-/

namespace X86Disassembly.Text.Terminal

/-- How far a control sequence has come. -/
inductive State
  /-- No sequence has begun. -/
  | ground
  | escape
  | escapeIntermediate
  /-- Parameters of a control function, up to its final letter. -/
  | csi
  | dcsEntry
  | dcsParameter
  | dcsIntermediate
  /-- Data for a device, up to a string terminator. -/
  | controlString
  /-- A command to the operating system, up to a bell. -/
  | oscString
  deriving DecidableEq

/-- A control character that moves on in the text: tab, line feed, form feed or carriage return. -/
def isBlankControl (c : Char) : Bool :=
  c == '\x09' || c == '\x0a' || c == '\x0c' || c == '\x0d'

/-- A character that is shown outside of sequences. -/
def isVisible (c : Char) : Bool :=
  ('\x20' ≤ c && c != '\x7f') || isBlankControl c

/-- The state after the character that follows an escape. -/
def afterEscape (c : Char) : State :=
  if c < '0' then .escapeIntermediate
  else if c = '[' then .csi
  else if c = ']' then .oscString
  else if c = 'P' then .dcsEntry
  else if c = 'X' ∨ c = '^' ∨ c = '_' then .controlString
  else .ground

/-- The state after a printable ASCII character. -/
def afterPrintable (s : State) (c : Char) : State :=
  match s with
  | .ground => .ground
  | .escape => afterEscape c
  | .escapeIntermediate => if c < '0' then .escapeIntermediate else .ground
  | .csi => if c < '@' then .csi else .ground
  | .dcsEntry =>
    if c < '0' then .dcsIntermediate else if c < '@' then .dcsParameter else .controlString
  | .dcsParameter =>
    if c < '0' then .dcsIntermediate else if c < '<' then .dcsParameter else .controlString
  | .dcsIntermediate => if c < '0' then .dcsIntermediate else .controlString
  | .controlString => .controlString
  | .oscString => .oscString

/-- The state after a control character. -/
def afterControl (s : State) (c : Char) : State :=
  if s = .oscString ∧ c = '\x07' then .ground else s

/-- The state after a character outside ASCII. The byte `9C` in its encoding ends a string. -/
def afterWide (s : State) (c : Char) : State :=
  if s = .controlString ∧ 0x9C ∈ String.utf8EncodeChar c then .ground else s

/-- Blank control characters are shown in these states, even within a sequence. -/
def showsBlanks : State → Bool
  | .ground | .escape | .escapeIntermediate | .csi => true
  | _ => false

/-- The state after a character, and whether the character is shown. -/
def next (s : State) (c : Char) : State × Bool :=
  if c = '\x1b' then (.escape, false)
  else if c = '\x18' ∨ c = '\x1a' then (.ground, false)
  else if c = '\x7f' then (s, false)
  else if c < '\x20' then (afterControl s c, showsBlanks s && isBlankControl c)
  else if c < '\x7f' then (afterPrintable s c, s = .ground)
  else (afterWide s c, s = .ground)

/-- The visible part of a text in a state. After a character that is shown, all visible characters
are shown up to the next one that is not; if the first was a blank within a sequence, the sequence
then goes on, unless one of them was outside ASCII. -/
def visibleFrom : State → Bool → List Char → List Char
  | _, _, [] => []
  | s, shown, c :: rest =>
    if shown ∧ isVisible c then
      c :: visibleFrom (if c < '\x7f' then s else .ground) true rest
    else
      match next s c with
      | (s, true) => c :: visibleFrom s true rest
      | (s, false) => visibleFrom s false rest

/-- A text without control characters and control sequences. -/
def visible (text : String) : String :=
  String.ofList (visibleFrom .ground false text.toList)

/-- A text in another colour. -/
def highlighted (text : String) : String :=
  "\x1b[33m" ++ text ++ "\x1b[0m"

/-- A text in bold letters. -/
def bold (text : String) : String :=
  "\x1b[1m" ++ text ++ "\x1b[0m"

end X86Disassembly.Text.Terminal
