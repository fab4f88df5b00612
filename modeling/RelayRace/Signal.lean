/-!
# Abort signals

A signal is a shared flag that somebody raises to call work off. A signal can
be derived from one or two others; it then reads as raised when its own flag or
the flag of any ancestor is raised. Raising a derived signal does not touch its
ancestors, which is how a round can end early without ending its caller.

Flags are shared by the copies of a signal, so they live in a table of their
own, `Flags`, and a signal holds the numbers of its flag and of its ancestors'
flags. The ancestors are collected when the signal is derived; no later
operation changes them.
-/

namespace RelayRace

/-- The flags of all signals, by number. -/
structure Flags where
  cells : List Bool := []
  deriving DecidableEq, Repr

namespace Flags

/-- Whether a flag is raised. A number that stands for no flag is not raised. -/
def isRaised (flags : Flags) (number : Nat) : Bool := flags.cells.getD number false

/-- Raises or lowers a flag. -/
def put (flags : Flags) (number : Nat) (raised : Bool) : Flags :=
  ⟨flags.cells.set number raised⟩

/-- Adds a flag that is not raised and tells its number. -/
def fresh (flags : Flags) : Nat × Flags :=
  (flags.cells.length, ⟨flags.cells ++ [false]⟩)

end Flags

/-- A signal: its flag and the flags of its ancestors. -/
structure Signal where
  flag : Nat
  ancestors : List Nat
  deriving DecidableEq, Repr, Inhabited

namespace Signal

/-- A new signal without ancestors. -/
def create (flags : Flags) : Signal × Flags :=
  let (number, flags) := flags.fresh
  (⟨number, []⟩, flags)

/-- Every flag by which a signal can be raised. -/
def reads (signal : Signal) : List Nat := signal.flag :: signal.ancestors

/-- Whether the signal reads as raised: its own flag is, or an ancestor's. -/
def isAborted (signal : Signal) (flags : Flags) : Bool :=
  signal.reads.any flags.isRaised

/-- Raises the signal's own flag. -/
def abort (signal : Signal) (flags : Flags) : Flags := flags.put signal.flag true

/-- Lowers the signal's own flag. -/
def reset (signal : Signal) (flags : Flags) : Flags := flags.put signal.flag false

/-- A signal derived from this one. -/
def child (signal : Signal) (flags : Flags) : Signal × Flags :=
  let (number, flags) := flags.fresh
  (⟨number, signal.ancestors ++ [signal.flag]⟩, flags)

/-- A signal derived from two others. -/
def link (signal other : Signal) (flags : Flags) : Signal × Flags :=
  let (derived, flags) := signal.child flags
  (⟨derived.flag, derived.ancestors ++ other.flag :: other.ancestors⟩, flags)

end Signal

/-! ## Families of signals -/

/-- What can be done to a family of signals. Members are named by their place
in the order in which they joined; a name that no member has is ignored. -/
inductive SignalStep where
  | create
  | child (parent : Nat)
  | link (first second : Nat)
  | share (member : Nat)
  | abort (member : Nat)
  | reset (member : Nat)
  deriving DecidableEq, Repr

/-- Signals in the order in which they were made, over one table of flags. -/
structure SignalFamily where
  flags : Flags
  members : List Signal
  deriving DecidableEq, Repr

namespace SignalFamily

/-- The family of one new signal. -/
def initial : SignalFamily :=
  let (signal, flags) := Signal.create {}
  ⟨flags, [signal]⟩

/-- Adds a signal that was made together with its flag. -/
def join (family : SignalFamily) (made : Signal × Flags) : SignalFamily :=
  ⟨made.2, family.members ++ [made.1]⟩

/-- One operation on the family. -/
def apply (family : SignalFamily) (step : SignalStep) : SignalFamily :=
  match step with
  | .create => family.join (Signal.create family.flags)
  | .child parent =>
      match family.members[parent]? with
      | some signal => family.join (signal.child family.flags)
      | none => family
  | .link first second =>
      match family.members[first]?, family.members[second]? with
      | some signal, some other => family.join (signal.link other family.flags)
      | _, _ => family
  | .share member =>
      match family.members[member]? with
      | some signal => family.join (signal, family.flags)
      | none => family
  | .abort member =>
      match family.members[member]? with
      | some signal => { family with flags := signal.abort family.flags }
      | none => family
  | .reset member =>
      match family.members[member]? with
      | some signal => { family with flags := signal.reset family.flags }
      | none => family

/-- The family after a sequence of operations. -/
def run (family : SignalFamily) (steps : List SignalStep) : SignalFamily :=
  steps.foldl apply family

/-- How every member reads. -/
def readings (family : SignalFamily) : List Bool :=
  family.members.map fun signal => signal.isAborted family.flags

end SignalFamily

end RelayRace
