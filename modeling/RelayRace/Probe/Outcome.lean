import RelayRace.Probe.Attempt

/-!
# Outcomes

The outcome of a probe is a value: it holds what the probe still holds, and
whoever has the outcome closes that or hands it on. Only an outcome that
responded can become a winner, and it takes everything with it.
-/

namespace RelayRace

/-- What came of a probe. -/
structure Outcome where
  index : Nat
  candidate : Candidate
  protocol : Option Protocol := none
  responded : Bool := false
  elapsed : Duration := .zero
  error : Option String := none
  usedProxy : Bool := false
  held : Holdings := {}
  deriving DecidableEq, Repr

/-- The winner of a round with its live connection. -/
structure Winner where
  index : Nat
  candidate : Candidate
  protocol : Protocol
  usedProxy : Bool
  responseTime : Duration
  hasSubServer : Bool
  deriving DecidableEq, Repr

namespace Outcome

/-- The outcome of a probe that came to nothing. -/
def failed (index : Nat) (candidate : Candidate) (protocol : Option Protocol)
    (elapsed : Duration) (error : String) : Outcome :=
  { index, candidate, protocol, elapsed, error := some error }

/-- Closes what the outcome holds. -/
def release (o : Outcome) : Outcome × List Act :=
  let (held, acts) := o.held.release o.index
  ({ o with held }, acts)

/-- The handles that are left when a winner took its own. -/
def leftOver (o : Outcome) : Holdings := { o.held with socket := false, connection := false }

/-- Makes a winner of an outcome, and tells what is closed on the way: all that
is held when there is no winner, and nothing otherwise. -/
def select (o : Outcome) : Option Winner × List Act :=
  match o.protocol with
  | some protocol =>
      if o.responded && o.held.socket && o.held.connection then
        (some {
          index := o.index
          candidate := o.candidate
          protocol
          usedProxy := o.usedProxy
          responseTime := o.elapsed
          hasSubServer := o.held.subServer }, [])
      else (none, o.held.closing o.index)
  | none => (none, o.held.closing o.index)

/-- The outcome as the log tells it. -/
def check (o : Outcome) : ResponseCheck where
  address := o.candidate.ipAddress
  protocol := o.protocol
  front := o.candidate.front
  responded := o.responded
  elapsed := o.elapsed
  error := o.error
  region := o.candidate.region

end Outcome

namespace Winner

/-- What a winner holds. -/
def held (w : Winner) : Holdings :=
  { socket := true, connection := true, subServer := w.hasSubServer }

/-- Closes the winner's connection. -/
def close (w : Winner) : List Act := w.held.closing w.index

end Winner

end RelayRace
