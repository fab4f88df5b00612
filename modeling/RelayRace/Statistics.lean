import RelayRace.Duration
import RelayRace.Protocol

/-!
# Round summaries and statistics

A summary is what is left of a round; the statistics are a running aggregate
of the summaries. Every count is a sum over the recorded rounds, so it does not
depend on their order.

The average response time of the winners is kept in whole nanoseconds and
updated from its own last value: with `k` winners behind it, the average `a`
becomes the whole part of `(a * (k - 1) + x) / k`. The quotient is kept in 64
bits.
-/

namespace RelayRace

/-- What is left of a round. -/
structure Summary where
  dispatched : Nat := 0
  completed : Nat := 0
  responded : Nat := 0
  winner : Option String := none
  protocol : Option Protocol := none
  responseTime : Option Duration := none
  aborted : Bool := false
  deriving DecidableEq, Repr

/-- Whether the round had a winner. -/
def Summary.succeeded (s : Summary) : Bool := s.winner.isSome

/-! ## Wins by protocol -/

/-- How often each protocol carried the winner. -/
structure Wins where
  ossh : Nat := 0
  unfrontedMeekOssh : Nat := 0
  frontedMeekOssh : Nat := 0
  deriving DecidableEq, Repr

namespace Wins

/-- The count of one protocol. -/
def count (wins : Wins) : Protocol → Nat
  | .ossh => wins.ossh
  | .unfrontedMeekOssh => wins.unfrontedMeekOssh
  | .frontedMeekOssh => wins.frontedMeekOssh

/-- Counts one more win. -/
def bump (wins : Wins) : Protocol → Wins
  | .ossh => { wins with ossh := wins.ossh + 1 }
  | .unfrontedMeekOssh => { wins with unfrontedMeekOssh := wins.unfrontedMeekOssh + 1 }
  | .frontedMeekOssh => { wins with frontedMeekOssh := wins.frontedMeekOssh + 1 }

theorem count_bump (wins : Wins) (won other : Protocol) :
    (wins.bump won).count other = wins.count other + if other = won then 1 else 0 := by
  cases won <;> cases other <;> rfl

/-- The better of the best protocol so far and another: more wins are better,
and of equals the earlier stays. -/
def better (wins : Wins) (best : Option Protocol) (other : Protocol) : Option Protocol :=
  if wins.count other = 0 then best
  else
    match best with
    | none => some other
    | some held => if wins.count held < wins.count other then some other else some held

/-- The protocol with the most wins, the most preferred of equals, if any won. -/
def mostCommon (wins : Wins) : Option Protocol :=
  Protocol.all.foldl wins.better none

end Wins

/-! ## The aggregate -/

/-- The aggregate of the recorded rounds. -/
structure Statistics where
  total : Nat := 0
  successful : Nat := 0
  failed : Nat := 0
  dispatched : Nat := 0
  responded : Nat := 0
  average : Duration := .zero
  wins : Wins := {}
  last : Option Summary := none
  deriving DecidableEq, Repr

namespace Statistics

/-- The average after one more winner, which is the `k`-th. -/
def averageAfter (average new : Duration) (k : Nat) : Duration :=
  if k = 1 then new
  else ⟨(average.nanos * (k - 1) + new.nanos) / k % UInt64.size⟩

/-- Adds what a round with a winner brings beyond the counts of every round. -/
def recordWin (stats : Statistics) (s : Summary) : Statistics :=
  let successful := stats.successful + 1
  { stats with
    successful
    wins :=
      match s.protocol with
      | some protocol => stats.wins.bump protocol
      | none => stats.wins
    average :=
      match s.responseTime with
      | some time => averageAfter stats.average time successful
      | none => stats.average }

/-- Adds a round to the aggregate. -/
def record (stats : Statistics) (s : Summary) : Statistics :=
  let counted :=
    if s.succeeded then stats.recordWin s else { stats with failed := stats.failed + 1 }
  { counted with
    total := stats.total + 1
    dispatched := stats.dispatched + s.dispatched
    responded := stats.responded + s.responded
    last := some s }

/-- The part of the rounds that had a winner, zero before the first round. -/
def successRate (stats : Statistics) : Float :=
  if stats.total = 0 then 0.0
  else stats.successful.toFloat / stats.total.toFloat

/-- The protocol that carried the most winners. -/
def mostCommon (stats : Statistics) : Option Protocol := stats.wins.mostCommon

end Statistics

end RelayRace
