import X86Disassembly.Operation
import X86Disassembly.Segment

/-!
# Prefix bytes

An instruction may start with any number of prefix bytes. Only a summary of them matters: the last
segment, the last repetition, and whether a lock or a size override occurs at all.
-/

namespace X86Disassembly

/-- Which of the two repetition prefixes was given. -/
inductive Repetition
  | rep
  | repne
  deriving DecidableEq

/-- What one prefix byte says. -/
inductive Prefix
  | segment (s : Segment)
  | lock
  | repetition (r : Repetition)
  | operandSize
  | addressSize
  deriving DecidableEq

namespace Prefix

/-- The marker of a map row that holds this prefix. -/
def marker : Prefix → Operation
  | segment _ => .segmentPrefix
  | lock => .lockPrefix
  | repetition .rep => .repPrefix
  | repetition .repne => .repNePrefix
  | operandSize => .operandSizePrefix
  | addressSize => .addressSizePrefix

end Prefix

/-- The summary of a run of prefixes. -/
structure Prefixes where
  lock : Bool := false
  repetition : Option Repetition := none
  segment : Option Segment := none
  operandSize : Bool := false
  addressSize : Bool := false
  deriving DecidableEq

namespace Prefixes

/-- The summary after one more prefix: the last segment and the last repetition win, the rest are
flags. -/
def add (s : Prefixes) : Prefix → Prefixes
  | .segment seg => { s with segment := some seg }
  | .lock => { s with lock := true }
  | .repetition r => { s with repetition := some r }
  | .operandSize => { s with operandSize := true }
  | .addressSize => { s with addressSize := true }

end Prefixes

end X86Disassembly
