import Mathlib.Algebra.Order.Floor.Div
import RelayRace.Signal
import RelayRace.Sleep

/-!
# A sleeper looks on a grid

A sleeper that can be called off lies down for the shorter of a poll interval and
what is left, again and again.  If every timer goes off on time, it looks at its
flag at the multiples of the interval below the total, and at the total (`grid`).
The flag may go up and down between two looks as it likes; only the looks count.

The sleeper is told in two ways, as the machine that waits for its timer and as a
whole sleep against a timeline of readings.  Both follow the same grid, and the
induction is on the intervals that are left of it.
-/

namespace RelayRace

namespace Sleep

/-! ## The grid -/

/-- The time after so many intervals, or the end. -/
def mark (total poll passed : Nat) : Nat := min (passed * poll) total

section Grid

variable {total poll passed left time : Nat}

end Grid

/-! ## The end of a sleep -/

/-- How a sleep that looks at these times ends: at the first of them at which the
flag is raised, or after the total. -/
def endingOf (readings : Nat → Bool) (total : Nat) (times : List Nat) : Ending :=
  match times.find? readings with
  | some time => ⟨true, time⟩
  | none => ⟨false, total⟩

section Ending

variable {total poll time : Nat} {times : List Nat}

end Ending

/-- The looks that are still to come after one at `now` that led to `look`, when
every timer goes off on time, and how and when the sleep ends. -/
inductive Course (reads : Instant → Bool) :
    Instant → Look → List Instant → Bool → Instant → Prop where
  | aborted {now : Instant} : Course reads now .aborted [] true now
  | rested {now : Instant} : Course reads now .rested [] false now
  | woke {now : Instant} {sleep : Sleep} {later : List Instant} {aborted : Bool} {finish : Instant}
      (hLater : Course reads sleep.wake (sleep.resume sleep.wake (reads sleep.wake)) later aborted
        finish) :
      Course reads now (.asleep sleep) (sleep.wake :: later) aborted finish

section Machine

variable {reads : Instant → Bool} {now deadline : Instant} {poll : Duration}

/-- There is one way for a sleep to go on. -/
theorem Course.unique {look : Look} {later others : List Instant} {aborted also : Bool}
    {finish ended : Instant} (hCourse : Course reads now look later aborted finish) :
    Course reads now look others also ended → others = later ∧ also = aborted ∧ ended = finish := by
  induction hCourse generalizing others with
  | aborted =>
      intro hOther
      cases hOther
      exact ⟨rfl, rfl, rfl⟩
  | rested =>
      intro hOther
      cases hOther
      exact ⟨rfl, rfl, rfl⟩
  | woke _ ih =>
      intro hOther
      cases hOther with
      | woke hLater =>
          obtain ⟨rfl, rfl, rfl⟩ := ih hLater
          exact ⟨rfl, rfl, rfl⟩

theorem look_late (hLate : deadline ≤ now) : look deadline poll now false = .rested := by
  simp [look, hLate]

theorem look_early (hEarly : now < deadline) :
    look deadline poll now false =
      .asleep ⟨deadline, poll, now + min poll.nanos (deadline - now)⟩ := by
  simp [look, Nat.not_le.mpr hEarly]

/-- Only a sleep whose time has come is over. -/
theorem le_of_look_rested {aborted : Bool} (hLook : look deadline poll now aborted = .rested) :
    deadline ≤ now := by
  unfold look at hLook
  split at hLook
  · cases hLook
  · split at hLook
    · assumption
    · cases hLook

/-- Whoever sleeps on has some time left, and looks again in time. -/
theorem eq_of_look_asleep {aborted : Bool} {sleep : Sleep}
    (hLook : look deadline poll now aborted = .asleep sleep) :
    now < deadline ∧ sleep = ⟨deadline, poll, now + min poll.nanos (deadline - now)⟩ := by
  unfold look at hLook
  split at hLook
  · cases hLook
  · split at hLook
    · cases hLook
    · rename_i hEarly
      exact ⟨Nat.not_le.mp hEarly, (Look.asleep.inj hLook).symm⟩

/-- A sleep that began at `began` and has just looked goes on as `ending` says, and
its looks are those of the given times that come before the end. -/
structure Follows (reads : Instant → Bool) (began now : Instant) (look : Look)
    (later : List Instant) (times : List Nat) (ending : Ending) : Prop where
  course : Course reads now look later ending.aborted (began + ending.elapsed)
  looks : now :: later = (times.filter (· ≤ ending.elapsed)).map (began + ·)

end Machine

/-! ## Sleeping on a signal -/

/-- What a signal of a family reads at a look at `now`, when `calls t` is what is
done to the family after a look at `t - 1` and before one at `t`. -/
def readingOf (signal : Signal) (family : SignalFamily) (calls : Instant → List SignalStep)
    (now : Instant) : Bool :=
  signal.isAborted (family.run ((List.range (now + 1)).flatMap calls)).flags

namespace Sample

/-- The signal of a new family is raised and lowered between two looks, and raised
for good at the last moment. -/
def calls (time : Instant) : List SignalStep :=
  if time = 11 then [.abort 0] else if time = 12 then [.reset 0] else
    if time = 15 then [.abort 0] else []

def reads : Instant → Bool := readingOf ⟨0, []⟩ .initial calls

theorem course : Course reads 10 (start 10 ⟨5⟩ ⟨2⟩ (reads 10)) [12, 14, 15] true 15 :=
  .woke (.woke (.woke .aborted))

end Sample

end Sleep

end RelayRace
