/-!
# Calls on a selector

A selector is shared: any number of callers may run it or abort it at the same
time. What they share is one abort flag and one value that says whether a run
loop is going. A call goes through its stages one at a time, and between two of
its steps any other call and any run loop may take theirs.

A run first does what an abort does: it raises the flag and waits until no run
loop is going. Then it lowers the flag, marks the selector as running and starts
a loop. A loop that exits, however it does, clears the mark. A run whose caller
lost interest is dropped, and its loop is ended with it.
-/

namespace RelayRace

/-- What is called. -/
inductive CallKind where
  | run
  | abort
  deriving DecidableEq, Repr

/-- How far a call has come. -/
inductive CallStage where
  /-- It is about to raise the flag. -/
  | raising
  /-- It waits until no loop is going. -/
  | awaiting
  /-- A run is about to lower the flag. -/
  | lowering
  /-- A run is about to mark the selector as running. -/
  | marking
  /-- A run is about to start its loop. -/
  | starting
  /-- A run waits for its loop. -/
  | joined (loop : Nat)
  | returned
  | dropped
  deriving DecidableEq, Repr

/-- A call that was made. -/
structure Call where
  kind : CallKind
  stage : CallStage := .raising
  deriving DecidableEq, Repr

/-- A selector with its callers. -/
structure Calls where
  /-- The selector's abort flag. -/
  abort : Bool := false
  /-- Whether the selector is marked as running. -/
  running : Bool := false
  /-- The calls in the order in which they were made. -/
  calls : List Call := []
  /-- For every loop that was started, whether it is still going. -/
  loops : List Bool := []
  deriving DecidableEq, Repr

/-- What can happen to a selector with callers. -/
inductive CallEvent where
  /-- Somebody calls. -/
  | call (kind : CallKind)
  /-- A call takes its next step. -/
  | advance (call : Nat)
  /-- A loop exits. -/
  | exit (loop : Nat)
  /-- A run is dropped by its caller. -/
  | drop (call : Nat)
  deriving DecidableEq, Repr

namespace Calls

/-- Brings a call to another stage. -/
def put (s : Calls) (number : Nat) (call : Call) (stage : CallStage) : Calls :=
  { s with calls := s.calls.set number { call with stage } }

/-- A loop exits and clears the mark. -/
def exitLoop (s : Calls) (loop : Nat) : Option Calls :=
  if s.loops.getD loop false then
    some { s with loops := s.loops.set loop false, running := false }
  else none

/-- The next step of a call; none when it has to wait or has no more steps. -/
def advance (s : Calls) (number : Nat) (call : Call) : Option Calls :=
  match call.stage with
  | .raising => some { s.put number call .awaiting with abort := true }
  | .awaiting =>
      if s.running then none
      else
        match call.kind with
        | .run => some (s.put number call .lowering)
        | .abort => some (s.put number call .returned)
  | .lowering => some { s.put number call .marking with abort := false }
  | .marking => some { s.put number call .starting with running := true }
  | .starting =>
      some { s.put number call (.joined s.loops.length) with loops := s.loops ++ [true] }
  | .joined loop => if s.loops.getD loop false then none else some (s.put number call .returned)
  | .returned | .dropped => none

/-- One event; none when it cannot happen now. -/
def step (s : Calls) (event : CallEvent) : Option Calls :=
  match event with
  | .call kind => some { s with calls := s.calls ++ [{ kind }] }
  | .advance number =>
      match s.calls[number]? with
      | some call => s.advance number call
      | none => none
  | .exit loop => s.exitLoop loop
  | .drop number =>
      match s.calls[number]? with
      | some call =>
          match call.kind, call.stage with
          | .run, .joined loop =>
              some ((s.exitLoop loop).getD s |>.put number call .dropped)
          | .run, .awaiting => some (s.put number call .dropped)
          | _, _ => none
      | none => none

/-- The first call that can take a step, with its number. -/
def ready (s : Calls) : Option Nat :=
  (List.range s.calls.length).find? fun number => (s.step (.advance number)).isSome

end Calls

end RelayRace
