import RelayRace.Duration

/-!
# Sleep that an abort cuts short

A sleeper that can be called off looks at its flag before it sleeps, after
every poll interval, and once more at the end. So an abort that stays set is
noticed within one interval, and one that holds at the very end still counts.

`Sleep` is the sleeper between two looks: when it ends and when it looks next.
`Sleep.run` plays a whole sleep against a timeline of readings.
-/

namespace RelayRace

/-- A sleeper between two looks at its flag. -/
structure Sleep where
  /-- When the sleep is over. -/
  deadline : Instant
  /-- How long it sleeps between two looks at most. -/
  poll : Duration
  /-- When it looks next. -/
  wake : Instant
  deriving DecidableEq, Repr

namespace Sleep

/-- What a look at the flag leads to. -/
inductive Look where
  | aborted
  | rested
  | asleep (sleep : Sleep)
  deriving DecidableEq, Repr

/-- The look at time `now` of a sleeper with the given deadline. -/
def look (deadline : Instant) (poll : Duration) (now : Instant) (aborted : Bool) : Look :=
  if aborted then .aborted
  else if deadline ≤ now then .rested
  else .asleep ⟨deadline, poll, now + min poll.nanos (deadline - now)⟩

/-- Lies down at time `now` for the given time. -/
def start (now : Instant) (total poll : Duration) (aborted : Bool) : Look :=
  look (now + total.nanos) poll now aborted

/-- Looks again once the time to wake has come. -/
def resume (sleep : Sleep) (now : Instant) (aborted : Bool) : Look :=
  look sleep.deadline sleep.poll now aborted

/-! ## A whole sleep -/

/-- How a sleep ended, and the time it took. -/
structure Ending where
  aborted : Bool
  elapsed : Nat
  deriving DecidableEq, Repr

/-- Sleeps on with `rest` still to go after `elapsed`. The readings say how the
flag reads at each time since the sleep began. A poll interval of zero is taken
for the shortest positive one. -/
def runFrom (readings : Nat → Bool) (poll : Nat) (elapsed rest : Nat) : Ending :=
  if readings elapsed then ⟨true, elapsed⟩
  else if _h : rest = 0 then ⟨false, elapsed⟩
  else runFrom readings poll (elapsed + min (max poll 1) rest) (rest - min (max poll 1) rest)
termination_by rest
decreasing_by omega

/-- Plays a sleep of `total` against a timeline of readings. -/
def run (readings : Nat → Bool) (total poll : Nat) : Ending :=
  runFrom readings poll 0 total

end Sleep

end RelayRace
