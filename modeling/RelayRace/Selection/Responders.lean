import RelayRace.Probe.Outcome
import RelayRace.Random.Shuffle

/-!
# The order of the responders

All that responded within one look at the results count as equally fast. They
are sorted by their dispatch index, which forgets the order in which they
happened to arrive, and then shuffled. If the entry that stood first in the
stored list is among them, it goes to the front, so that the address under which
this host is seen does not change without need.
-/

namespace RelayRace

/-- Whether one outcome was dispatched no later than another. -/
def dispatchedBefore (a b : Outcome) : Bool := a.index ≤ b.index

/-- Whether an outcome is one of a given server. -/
def Outcome.isOf (server : Candidate) (o : Outcome) : Bool := o.candidate.sameServer server

/-- Moves the first element that satisfies a test to the front, if there is one. -/
def firstToFront {α : Type} (test : α → Bool) (entries : List α) : List α :=
  match entries.find? test with
  | some entry => entry :: entries.eraseP test
  | none => entries

/-- Gives a server that responded the first place. -/
def preferFirst (first : Option Candidate) (responders : List Outcome) : List Outcome :=
  match first with
  | some server => firstToFront (Outcome.isOf server) responders
  | none => responders

/-- Puts the responders of a round in the order of preference. -/
def orderResponders (g : Generator) (first : Option Candidate) (responders : List Outcome) :
    List Outcome × Generator :=
  let (shuffled, g) := g.shuffle (responders.mergeSort dispatchedBefore)
  (preferFirst first shuffled, g)

end RelayRace
