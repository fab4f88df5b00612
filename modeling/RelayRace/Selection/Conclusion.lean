import RelayRace.Selection.Responders
import RelayRace.ServerList

/-!
# The conclusion of a round

When all outcomes are in, the round tells the log about each, orders the
responders, moves them to the front of the stored list, hands the first one on
as the winner and closes what the others hold. A round whose abort signal is
raised at this point has no winner, and leaves the list and the generator as
they are.
-/

namespace RelayRace

/-- What a round comes to. -/
structure Conclusion where
  winner : Option Winner
  list : ServerList
  generator : Generator
  acts : List Act
  deriving DecidableEq, Repr

namespace Conclusion

/-- The acts that close what some outcomes hold. -/
def releaseAll (outcomes : List Outcome) : List Act :=
  outcomes.flatMap fun o => o.held.closing o.index

/-- What is told and closed for all outcomes before a winner is chosen. -/
def opening (outcomes : List Outcome) : List Act :=
  outcomes.map (fun o => .noted (.responseCheck o.check)) ++
    releaseAll (outcomes.filter fun o => !o.responded)

/-- What is told about a winner. -/
def announcement : Option Winner → List Act
  | some w => [.noted (.selected w.candidate.ipAddress w.protocol w.candidate.front)]
  | none => []

/-- Hands on the first of the ordered responders. -/
def award (list : ServerList) (g : Generator) (ordered : List Outcome) : Conclusion :=
  match ordered with
  | [] => ⟨none, list, g, []⟩
  | best :: losers =>
      let preferred := ordered.map Outcome.candidate
      let (winner, acts) := best.select
      { winner
        list := list.moveToFront preferred
        generator := g
        acts :=
          [.movedToFront preferred, .noted (.preferredServers preferred.length)] ++ acts ++
            releaseAll losers ++ announcement winner }

/-- Concludes a round from its outcomes, given the entry that stood first in the
list. -/
def of (list : ServerList) (g : Generator) (first : Option Candidate) (abort : Bool)
    (outcomes : List Outcome) : Conclusion :=
  let responders := outcomes.filter Outcome.responded
  if abort then
    ⟨none, list, g, opening outcomes ++ releaseAll responders⟩
  else
    let (ordered, g) := orderResponders g first responders
    let awarded := award list g ordered
    { awarded with acts := opening outcomes ++ awarded.acts }

end Conclusion

end RelayRace
