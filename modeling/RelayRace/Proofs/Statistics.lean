import Mathlib.Algebra.Group.Action.Defs
import Mathlib.Algebra.Order.BigOperators.Group.List
import Mathlib.Algebra.Order.Field.Rat
import Mathlib.Data.List.Induction
import Mathlib.Tactic.Linarith
import Mathlib.Tactic.Ring
import RelayRace.Proofs.Selection.RoundStep

/-!
# The running average of the response times

The statistics keep no response times, only their average in whole nanoseconds,
and every winner renews it from its own last value.  The quotient of the `k`-th
renewal is cut to a whole number, which takes less than `k` away from the `k`-fold
of the average.  Nothing is ever given back, so what is missing in the end is at
most `1 + 2 + ... + (k - 1)` (`Averages`), and that spread over `k` winners is the
bound on the error.

A quotient of two numbers below `2 ^ 64`, weighted to make one, is below `2 ^ 64`
again.  So the cut to 64 bits never takes effect.
-/

namespace RelayRace

/-! ## Whole summaries -/

/-- A summary that names a winner with protocol and response time, or nothing of
the three. -/
structure Summary.Whole (s : Summary) : Prop where
  protocol : s.protocol.isSome = s.winner.isSome
  responseTime : s.responseTime.isSome = s.winner.isSome

namespace Round

variable {c next : Coordinator} {request : SelectionRequest} {amb : Ambient}
  {round later : Round} {event : RoundEvent} {acts : List Act}

/-- What a round that is over records is whole. -/
theorem whole_finish (c : Coordinator) (round : Round) (dispatched completed responded : Nat)
    (aborted : Bool) (winner : Option Winner) :
    ∃ s : Summary, s.Whole ∧
      (finish c round { dispatched, completed, responded, aborted } winner).1.statistics =
        c.statistics.record s := by
  cases winner with
  | none => exact ⟨_, ⟨rfl, rfl⟩, rfl⟩
  | some w => exact ⟨_, ⟨rfl, rfl⟩, rfl⟩

/-- An event of a round records nothing, or one whole summary. -/
theorem whole_of_step (hStep : round.step c request amb event = some (next, later, acts)) :
    next.statistics = c.statistics ∨
      ∃ s : Summary, s.Whole ∧ next.statistics = c.statistics.record s := by
  cases stepsTo_of_step hStep with
  | @gaveUp _ told => exact .inr (whole_finish c told 0 0 0 amb.abort none)
  | searched | crashed | dispatched | raced | collapsed => exact .inl rfl
  | @deserted _ generator told => exact .inr (whole_finish _ told 0 0 0 amb.abort _)
  | concluded => exact .inr (whole_finish _ round _ _ _ amb.abort _)

end Round

/-! ## Averages that are cut -/

/-- How an average that was renewed for each of some times stands to them. -/
structure Averages (times : List Nat) (average : Nat) : Prop where
  le_sum : times.length * average ≤ times.sum
  /-- Twice what is missing is at most `k * (k - 1)`. -/
  sum_le : 2 * times.sum ≤ 2 * (times.length * average) + times.length * (times.length - 1)
  floor_le : times ≠ [] → ∀ floor, (∀ time ∈ times, floor ≤ time) → floor ≤ average

/-- The average that a further time makes of the last one. -/
def renewed (average k time : Nat) : Nat := (average * k + time) / (k + 1)

theorem renewed_zero (average time : Nat) : renewed average 0 time = time := by
  simp [renewed]

/-- What the cut of a quotient takes away. -/
theorem renewed_cut (average k time : Nat) :
    ∃ cut, cut ≤ k ∧ (k + 1) * renewed average k time + cut = average * k + time :=
  ⟨(average * k + time) % (k + 1), Nat.le_of_lt_succ (Nat.mod_lt _ k.succ_pos),
    Nat.div_add_mod _ _⟩

theorem averages_nil (average : Nat) : Averages [] average :=
  ⟨Nat.le_of_eq (by simp), by simp, fun hSome => absurd rfl hSome⟩

theorem Averages.renewed {times : List Nat} {average : Nat} (hAverages : Averages times average)
    (time : Nat) : Averages (times ++ [time]) (renewed average times.length time) := by
  obtain ⟨hBelow, hMissing, hFloor⟩ := hAverages
  obtain ⟨cut, hCut, hQuotient⟩ := renewed_cut average times.length time
  have hLength : (times ++ [time]).length = times.length + 1 := by simp
  have hSum : (times ++ [time]).sum = times.sum + time := by simp
  have hTurn : average * times.length = times.length * average := Nat.mul_comm _ _
  refine ⟨?_, ?_, fun _ floor hAll => ?_⟩
  · rw [hLength, hSum]
    omega
  · -- The cuts so far took `k * (k - 1) / 2` at most, and this one takes at most `k`.
    have hNext : (times.length + 1) * times.length =
        times.length * (times.length - 1) + 2 * times.length := by
      cases times.length with
      | zero => rfl
      | succ n =>
          rw [Nat.add_sub_cancel]
          ring
    rw [hLength, hSum, Nat.add_sub_cancel, hNext]
    omega
  · have hTime : floor ≤ time := hAll time (by simp)
    have hOld : floor * times.length ≤ average * times.length := by
      cases times with
      | nil => simp
      | cons first rest =>
          refine Nat.mul_le_mul_right _ (hFloor (by simp) floor fun other hMem => ?_)
          exact hAll other (List.mem_append_left _ hMem)
    rw [RelayRace.renewed, Nat.le_div_iff_mul_le (Nat.succ_pos _), Nat.mul_succ]
    exact Nat.add_le_add hOld hTime

/-- The exact mean of some times. -/
def mean (times : List Nat) : ℚ := (times.sum : ℚ) / times.length

/-- What is promised of an average of some times. -/
structure Approximates (times : List Nat) (average : Nat) : Prop where
  /-- It is at least the least of them. -/
  least : ∃ time ∈ times, time ≤ average
  /-- It is at most the greatest of them. -/
  greatest : ∃ time ∈ times, average ≤ time
  le_mean : (average : ℚ) ≤ mean times
  shortfall : mean times - average ≤ ((times.length : ℚ) - 1) / 2

theorem Averages.approximates {times : List Nat} {average : Nat}
    (hAverages : Averages times average) (hSome : times ≠ []) : Approximates times average := by
  have hLength : 0 < times.length := List.length_pos_iff.mpr hSome
  have hPos : (0 : ℚ) < times.length := by exact_mod_cast hLength
  have hSum : (times.length : ℚ) * average ≤ times.sum := by exact_mod_cast hAverages.le_sum
  have hMissing : 2 * (times.sum : ℚ) ≤
      2 * (times.length * average) + times.length * (times.length - 1) := by
    have hCast : ((times.length - 1 : Nat) : ℚ) = times.length - 1 := by
      rw [Nat.cast_sub hLength, Nat.cast_one]
    rw [← hCast]
    exact_mod_cast hAverages.sum_le
  refine ⟨?_, ?_, ?_, ?_⟩
  · by_contra hNone
    push Not at hNone
    -- All times would be above the average, which is no less than any lower bound.
    have hAbove : average + 1 ≤ average := hAverages.floor_le hSome (average + 1) hNone
    omega
  · by_contra hNone
    push Not at hNone
    have hSmall : times.sum ≤ times.length • (average - 1) :=
      List.sum_le_card_nsmul times _ fun time hMem => Nat.le_sub_one_of_lt (hNone time hMem)
    have hPositive : 0 < average := by
      obtain ⟨time, hMem⟩ := List.exists_mem_of_ne_nil times hSome
      exact Nat.lt_of_le_of_lt (Nat.zero_le time) (hNone time hMem)
    have hLess : times.length * (average - 1) < times.length * average :=
      Nat.mul_lt_mul_of_pos_left (Nat.sub_one_lt_of_lt hPositive) hLength
    rw [smul_eq_mul] at hSmall
    exact absurd (hAverages.le_sum.trans hSmall) (Nat.not_le.mpr hLess)
  · rw [mean, le_div_iff₀ hPos, mul_comm]
    exact hSum
  · have hScaled : mean times * times.length = times.sum := by
      rw [mean, div_mul_cancel₀ _ (ne_of_gt hPos)]
    have hProduct : (mean times - average) * times.length ≤
        ((times.length : ℚ) - 1) / 2 * times.length := by
      rw [sub_mul, hScaled]
      linarith
    exact le_of_mul_le_mul_right hProduct hPos

/-! ## Widths -/

/-- The weighted sum of numbers of 64 bits is one of 128 bits, and its quotient one
of 64. -/
theorem renewed_lt {average k time : Nat} (hAverage : average < UInt64.size)
    (hTime : time < UInt64.size) : renewed average k time < UInt64.size := by
  rw [renewed, Nat.div_lt_iff_lt_mul k.succ_pos, Nat.mul_succ]
  exact Nat.add_lt_add_of_le_of_lt (Nat.mul_le_mul_right k hAverage.le) hTime

theorem weighted_lt {average k time : Nat} (hAverage : average < UInt64.size)
    (hCount : k + 1 < UInt64.size) (hTime : time < UInt64.size) :
    average * k + time < UInt64.size * UInt64.size := by
  calc average * k + time < UInt64.size * k + UInt64.size :=
        Nat.add_lt_add_of_le_of_lt (Nat.mul_le_mul_right k hAverage.le) hTime
    _ = UInt64.size * (k + 1) := (Nat.mul_succ _ _).symm
    _ ≤ UInt64.size * UInt64.size := Nat.mul_le_mul_left _ hCount.le

namespace Statistics

/-- The kept average is the renewed one. -/
theorem nanos_averageAfter {average time : Duration} {k : Nat}
    (hAverage : average.nanos < UInt64.size) (hTime : time.nanos < UInt64.size) :
    (averageAfter average time (k + 1)).nanos = renewed average.nanos k time.nanos := by
  unfold averageAfter
  split
  · rename_i hFirst
    have hZero : k = 0 := by omega
    rw [hZero, renewed_zero]
  · rw [Nat.add_sub_cancel]
    exact Nat.mod_eq_of_lt (renewed_lt hAverage hTime)

/-! ## Rounds in a row -/

/-- The statistics of some rounds. -/
def ofRounds (rounds : List Summary) : Statistics := rounds.foldl record {}

theorem ofRounds_snoc (rounds : List Summary) (s : Summary) :
    ofRounds (rounds ++ [s]) = (ofRounds rounds).record s := by
  simp [ofRounds]

/-- The response times of the winners of some rounds, in nanoseconds. -/
def winnerTimes (rounds : List Summary) : List Nat :=
  rounds.filterMap fun s => s.responseTime.map Duration.nanos

theorem winnerTimes_snoc (rounds : List Summary) (s : Summary) :
    winnerTimes (rounds ++ [s]) =
      winnerTimes rounds ++ (s.responseTime.map Duration.nanos).toList := by
  cases hTime : s.responseTime <;> simp [winnerTimes, hTime]

variable {stats : Statistics} {s : Summary}

/-- A round without a winner leaves the average and the number of winners alone. -/
theorem record_of_lost (stats : Statistics) (hLost : s.winner = none) :
    (stats.record s).average = stats.average ∧ (stats.record s).successful = stats.successful := by
  have hFailed : s.succeeded = false := by
    rw [Summary.succeeded, hLost]
    rfl
  simp [record, hFailed]

theorem record_of_won (stats : Statistics) {time : Duration} (hWhole : s.Whole)
    (hTime : s.responseTime = some time) :
    (stats.record s).average = averageAfter stats.average time (stats.successful + 1) ∧
      (stats.record s).successful = stats.successful + 1 := by
  have hWon : s.succeeded = true := by
    rw [Summary.succeeded, ← hWhole.responseTime, hTime]
    rfl
  simp [record, recordWin, hWon, hTime]

/-- What a round does to the average. -/
structure Renews (before : Statistics) (s : Summary) : Prop where
  lost : s.winner = none → (before.record s).average = before.average
  /-- The winner that comes after `k` others renews the average; neither the weighted
  sum nor the quotient leaves its width as long as the number of winners does not. -/
  won : ∀ time, s.responseTime = some time →
    (before.record s).average.nanos =
        (before.average.nanos * before.successful + time.nanos) / (before.successful + 1) ∧
      (before.average.nanos * before.successful + time.nanos) / (before.successful + 1) <
        UInt64.size ∧
      (before.successful + 1 < UInt64.size →
        before.average.nanos * before.successful + time.nanos < UInt64.size * UInt64.size)

/-- What the statistics of some rounds tell of the response times. -/
structure TellsTimes (rounds : List Summary) (stats : Statistics) : Prop where
  successful : stats.successful = (winnerTimes rounds).length
  averages : Averages (winnerTimes rounds) stats.average.nanos
  fits : stats.average.nanos < UInt64.size

theorem TellsTimes.renews {rounds : List Summary} (hTells : TellsTimes rounds stats)
    (hWhole : s.Whole)
    (hShort : ∀ time, s.responseTime = some time → time.nanos < UInt64.size) :
    stats.Renews s where
  lost hLost := (record_of_lost stats hLost).1
  won time hTime := by
    refine ⟨?_, renewed_lt hTells.fits (hShort time hTime), fun hCount =>
      weighted_lt hTells.fits hCount (hShort time hTime)⟩
    rw [(record_of_won stats hWhole hTime).1]
    exact nanos_averageAfter hTells.fits (hShort time hTime)

theorem TellsTimes.record {rounds : List Summary} (hTells : TellsTimes rounds stats)
    (hWhole : s.Whole)
    (hShort : ∀ time, s.responseTime = some time → time.nanos < UInt64.size) :
    TellsTimes (rounds ++ [s]) (stats.record s) := by
  cases hTime : s.responseTime with
  | none =>
      have hLost : s.winner = none := by
        rw [← Option.isNone_iff_eq_none, ← Option.not_isSome, ← hWhole.responseTime, hTime]
        rfl
      obtain ⟨hAverage, hSuccessful⟩ := record_of_lost stats hLost
      have hSame : winnerTimes (rounds ++ [s]) = winnerTimes rounds := by
        simp [winnerTimes_snoc, hTime]
      constructor
      · rw [hSuccessful, hSame]
        exact hTells.successful
      · rw [hAverage, hSame]
        exact hTells.averages
      · rw [hAverage]
        exact hTells.fits
  | some time =>
      obtain ⟨hAverage, hSuccessful⟩ := record_of_won stats hWhole hTime
      have hFits : time.nanos < UInt64.size := hShort time hTime
      have hOneMore : winnerTimes (rounds ++ [s]) = winnerTimes rounds ++ [time.nanos] := by
        simp [winnerTimes_snoc, hTime]
      have hRenewed : (stats.record s).average.nanos =
          renewed stats.average.nanos (winnerTimes rounds).length time.nanos := by
        rw [hAverage, nanos_averageAfter hTells.fits hFits, hTells.successful]
      constructor
      · rw [hSuccessful, hOneMore, hTells.successful, List.length_append, List.length_singleton]
      · rw [hRenewed, hOneMore]
        exact hTells.averages.renewed time.nanos
      · rw [hRenewed]
        exact renewed_lt hTells.fits hFits

theorem tellsTimes_ofRounds {rounds : List Summary} (hWhole : ∀ s ∈ rounds, s.Whole)
    (hShort : ∀ s ∈ rounds, ∀ time, s.responseTime = some time → time.nanos < UInt64.size) :
    TellsTimes rounds (ofRounds rounds) := by
  induction rounds using List.reverseRecOn with
  | nil => exact ⟨rfl, averages_nil _, by decide⟩
  | append_singleton rounds s ih =>
      have hBefore : TellsTimes rounds (ofRounds rounds) :=
        ih (fun other hMem => hWhole other (List.mem_append_left _ hMem))
          fun other hMem => hShort other (List.mem_append_left _ hMem)
      rw [ofRounds_snoc]
      exact hBefore.record (hWhole s (by simp)) (hShort s (by simp))

/-- What the average of some rounds is worth. -/
structure AveragesWell (rounds : List Summary) : Prop where
  /-- It counts every winner. -/
  successful : (ofRounds rounds).successful = (winnerTimes rounds).length
  approximates : winnerTimes rounds ≠ [] →
    Approximates (winnerTimes rounds) (ofRounds rounds).average.nanos
  renews : ∀ before s later, rounds = before ++ s :: later → (ofRounds before).Renews s

/-- Rounds record whole summaries.  Whatever whole summaries are recorded, with
response times of 64 bits, the average lies between the least and the greatest of
them, is never above their exact mean, and falls short of it by at most
`(k - 1) / 2` nanoseconds after `k` winners.  No number leaves its width on the
way, and rounds without a winner change nothing. -/
theorem average_close_to_mean :
    (∀ {c next : Coordinator} {request : SelectionRequest} {amb : Ambient}
        {round later : Round} {event : RoundEvent} {acts : List Act},
      round.step c request amb event = some (next, later, acts) →
      next.statistics = c.statistics ∨
        ∃ s : Summary, s.Whole ∧ next.statistics = c.statistics.record s) ∧
    ∀ {rounds : List Summary}, (∀ s ∈ rounds, s.Whole) →
      (∀ s ∈ rounds, ∀ time, s.responseTime = some time → time.nanos < UInt64.size) →
      AveragesWell rounds := by
  refine ⟨Round.whole_of_step, fun {rounds} hWhole hShort => ?_⟩
  have hTells : TellsTimes rounds (ofRounds rounds) := tellsTimes_ofRounds hWhole hShort
  refine ⟨hTells.successful, hTells.averages.approximates, ?_⟩
  rintro before s later rfl
  have hBefore : TellsTimes before (ofRounds before) :=
    tellsTimes_ofRounds (fun other hMem => hWhole other (List.mem_append_left _ hMem))
      fun other hMem => hShort other (List.mem_append_left _ hMem)
  exact hBefore.renews (hWhole s (by simp)) (hShort s (by simp))

namespace Sample

/-- The summary of a round that was won after some nanoseconds. -/
def won (nanos : Nat) : Summary :=
  { dispatched := 1, completed := 1, responded := 1, winner := some "10.0.0.1",
    protocol := some .ossh, responseTime := some ⟨nanos⟩ }

/-- Three winners, and a failed round after the first. -/
def rounds : List Summary := [won 1, { dispatched := 4 }, won 2, won 2]

theorem rounds_whole : ∀ s ∈ rounds, s.Whole := by
  intro s hMem
  simp only [rounds, List.mem_cons, List.not_mem_nil, or_false] at hMem
  obtain rfl | rfl | rfl | rfl := hMem <;> exact ⟨rfl, rfl⟩

theorem rounds_short :
    ∀ s ∈ rounds, ∀ time, s.responseTime = some time → time.nanos < UInt64.size := by
  intro s hMem time hTime
  simp only [rounds, List.mem_cons, List.not_mem_nil, or_false] at hMem
  obtain rfl | rfl | rfl | rfl := hMem <;> cases hTime <;> decide

end Sample

/-- The times 1, 2 and 2 have the mean 5/3.  Cut twice, the average is 1, two thirds
of a nanosecond short. -/
theorem average_of_three_winners :
    AveragesWell Sample.rounds ∧ winnerTimes Sample.rounds = [1, 2, 2] ∧
      (ofRounds Sample.rounds).average.nanos = 1 :=
  ⟨average_close_to_mean.2 Sample.rounds_whole Sample.rounds_short, by decide, by decide⟩

end Statistics

end RelayRace
