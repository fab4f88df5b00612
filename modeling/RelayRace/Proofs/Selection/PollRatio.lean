import RelayRace.Proofs.Selection.Wait

/-!
# What the poll ratio of accepted settings is worth

Accepted settings have a results interval that is a positive multiple of the
connect interval.  The multiple is the poll ratio as long as it fits in 32 bits,
and then the coarse looks of a race come exactly once in every results interval.

Nothing in the rules keeps the multiple below that width.  A larger one is cut
to its residue, so that coarse looks come too often; and one that is itself a
multiple of the width leaves a ratio of zero, with which a race crashes at its
second look.
-/

namespace RelayRace

namespace Settings

variable {s : Settings}

/-- How many looks at the flags a results interval has room for. -/
def looksPerResult (s : Settings) : Nat := s.resultsPoll.nanos / s.connectPoll.nanos

/-- The rules about intervals that accepted settings keep. -/
structure IntervalsFit (s : Settings) : Prop where
  positive : 0 < s.connectPoll.nanos
  le : s.connectPoll.nanos ≤ s.resultsPoll.nanos
  dvd : s.connectPoll.nanos ∣ s.resultsPoll.nanos
  round : s.resultsPoll.nanos ≤ s.maxRound.nanos

theorem intervalsFit_of_validate (hValid : s.validate = .ok ()) : s.IntervalsFit := by
  unfold validate at hValid
  split at hValid
  · cases hValid
  split at hValid
  · cases hValid
  rename_i hConnect
  split at hValid
  · cases hValid
  rename_i hPolls
  split at hValid
  · cases hValid
  rename_i hRound
  simp only [pollsMatch, Bool.not_eq_true', Bool.not_eq_false, Bool.and_eq_true,
    decide_eq_true_eq, beq_iff_eq] at hPolls
  simp only [Duration.isZero, beq_iff_eq] at hConnect
  rw [Duration.lt_def] at hRound
  exact
    { positive := by omega
      le := hPolls.1
      dvd := Nat.dvd_of_mod_eq_zero hPolls.2
      round := by omega }

/-- The multiple of accepted settings is positive, and it is what it is called. -/
theorem IntervalsFit.looks_mul (hFit : s.IntervalsFit) :
    0 < s.looksPerResult ∧ s.looksPerResult * s.connectPoll.nanos = s.resultsPoll.nanos := by
  have hMul : s.looksPerResult * s.connectPoll.nanos = s.resultsPoll.nanos :=
    Nat.div_mul_cancel hFit.dvd
  exact ⟨Nat.div_pos hFit.le hFit.positive, hMul⟩

/-- The ratio is the multiple, cut to 32 bits. -/
theorem IntervalsFit.pollRatio_eq (hFit : s.IntervalsFit) :
    s.pollRatio = s.looksPerResult % UInt32.size := by
  have hLooks := hFit.looks_mul.1
  have hConnect : max s.connectPoll.nanos 1 = s.connectPoll.nanos := by
    have hPositive := hFit.positive
    omega
  have hQuotient : s.resultsPoll.nanos / s.connectPoll.nanos = s.looksPerResult := rfl
  rw [pollRatio, hConnect, hQuotient, Nat.max_eq_left hLooks]

theorem IntervalsFit.pollRatio_of_lt (hFit : s.IntervalsFit)
    (hFits : s.looksPerResult < UInt32.size) : s.pollRatio = s.looksPerResult := by
  rw [hFit.pollRatio_eq, Nat.mod_eq_of_lt hFits]

/-- The ratio makes up the results interval exactly when it was not cut. -/
theorem IntervalsFit.pollRatio_mul_iff (hFit : s.IntervalsFit) :
    s.pollRatio * s.connectPoll.nanos = s.resultsPoll.nanos ↔
      s.looksPerResult < UInt32.size := by
  constructor
  · intro hProduct
    have hSame : s.pollRatio = s.looksPerResult :=
      Nat.eq_of_mul_eq_mul_right hFit.positive (hProduct.trans hFit.looks_mul.2.symm)
    rw [← hSame, hFit.pollRatio_eq]
    exact Nat.mod_lt _ (by decide)
  · intro hFits
    rw [hFit.pollRatio_of_lt hFits]
    exact hFit.looks_mul.2

theorem IntervalsFit.pollRatio_eq_zero_iff (hFit : s.IntervalsFit) :
    s.pollRatio = 0 ↔ UInt32.size ∣ s.looksPerResult := by
  rw [hFit.pollRatio_eq]
  exact (Nat.dvd_iff_mod_eq_zero ..).symm

/-- With a ratio that was not cut, a look is coarse exactly if the time that the
looks have taken by then is a positive multiple of the results interval. -/
theorem IntervalsFit.isCoarse_iff (hFit : s.IntervalsFit)
    (hFits : s.looksPerResult < UInt32.size) (k : Nat) :
    Race.isCoarse s.pollRatio k = true ↔
      0 < k * s.connectPoll.nanos ∧ s.resultsPoll.nanos ∣ k * s.connectPoll.nanos := by
  have hPositive := hFit.positive
  rw [Race.isCoarse_iff, hFit.pollRatio_of_lt hFits, ← hFit.looks_mul.2,
    Nat.mul_dvd_mul_iff_right hPositive, Nat.mul_pos_iff_of_pos_right hPositive]

end Settings

/-! ## Looks on time -/

namespace WaitTrace

/-- Whether every look was taken at the very moment at which it was due. -/
def OnTime (w : WaitTrace) : Prop := ∀ look ∈ w.looks, look.now = look.due

variable {settings : Settings} {ctx : RoundContext} {pool : Pool} {dispatched : Nat}
  {now deadline : Instant} {w after : WaitTrace}

/-- The looks so far came one connect interval after the other, and the next one
is due after another interval. -/
structure Paced (poll : Nat) (begun : Instant) (w : WaitTrace) : Prop where
  now : ∀ (k : Nat) (look : Race.Look), w.looks[k]? = some look → look.now = begun + k * poll
  next : w.race.phase = .waiting → w.race.nextTick = begun + w.looks.length * poll

theorem Paced.step {event : Ambient × Race.Event}
    (hPaced : w.OnTime → w.Paced settings.connectPoll.nanos now)
    (hStep : w.step settings ctx event = some after) (hOnTime : after.OnTime) :
    after.Paced settings.connectPoll.nanos now := by
  obtain ⟨amb, event⟩ := event
  obtain ⟨next, acts, hWaiting, hRace, rfl⟩ := step_eq_some hStep
  cases event with
  | tick =>
      have hEarlier : w.OnTime := fun look hMem =>
        hOnTime look (List.mem_append_left _ hMem)
      have hNow : amb.now = w.race.nextTick :=
        hOnTime _ (List.mem_append_right _ (List.mem_singleton_self _))
      obtain ⟨hLooks, hNext⟩ := hPaced hEarlier
      rw [hNext hWaiting] at hNow
      refine ⟨fun k look hLook => ?_, fun hOn => ?_⟩
      · rcases getElem?_look hLook with hEarly | ⟨rfl, rfl⟩
        · exact hLooks k look hEarly
        · exact hNow
      · have hLength : (w.note amb next .tick).looks.length = w.looks.length + 1 :=
          List.length_append
        have hDue : next.nextTick = amb.now + settings.connectPoll.nanos := by
          cases Race.stepsTo_of_step hRace with
          | waits => rfl
          | winds | crashes => cases hOn
        show next.nextTick = _
        rw [hDue, hNow, hLength, Nat.add_one_mul, Nat.add_assoc]
  | pool task =>
      obtain ⟨hLooks, hNext⟩ := hPaced hOnTime
      cases Race.stepsTo_of_step hRace with
      | pool => exact ⟨hLooks, hNext⟩
  | receive =>
      obtain ⟨hLooks, hNext⟩ := hPaced hOnTime
      cases Race.stepsTo_of_step hRace with
      | receive => exact ⟨hLooks, hNext⟩
  | settle => simp [Race.step, Race.settle, hWaiting] at hRace
  | expire => simp [Race.step, Race.expire, hWaiting] at hRace

theorem paced_play {schedule : List (Ambient × Race.Event)}
    (hPlay : (start pool dispatched now deadline).play settings ctx schedule = some w)
    (hOnTime : w.OnTime) : w.Paced settings.connectPoll.nanos now := by
  refine playSchedule_keeps (P := fun w => w.OnTime → w.Paced settings.connectPoll.nanos now)
    schedule (fun _ _ _ _ hBefore hStep => Paced.step hBefore hStep) ?_ hPlay hOnTime
  intro _
  refine ⟨fun k look hLook => ?_, fun _ => ?_⟩
  · cases hLook
  · show now = now + 0 * settings.connectPoll.nanos
    rw [Nat.zero_mul, Nat.add_zero]

/-- A wait crashes only with a ratio of zero. -/
theorem ratio_of_crashed {schedule : List (Ambient × Race.Event)}
    (hPlay : (start pool dispatched now deadline).play settings ctx schedule = some w)
    (hCrashed : w.race.crashed = true) : settings.pollRatio = 0 := by
  cases stands_play hPlay with
  | waits _ hFaithful | stopped _ hFaithful => cases hFaithful.intact.symm.trans hCrashed
  | crashed _ _ _ _ hCrashes => exact hCrashes.1

/-- With a ratio of zero a wait that comes to its second look crashes there, unless
the look ends it. -/
theorem crashed_of_ratio {schedule : List (Ambient × Race.Event)} {look : Race.Look}
    (hRatio : settings.pollRatio = 0)
    (hPlay : (start pool dispatched now deadline).play settings ctx schedule = some w)
    (hLook : w.looks[1]? = some look) (hAbort : look.abort = false)
    (hEarly : look.now < deadline) : w.race.crashed = true := by
  have hCrashes : look.Crashes settings.pollRatio deadline 1 :=
    ⟨hRatio, Nat.one_pos, hAbort, hEarly⟩
  cases stands_play hPlay with
  | waits _ _ _ hPassed => exact absurd hCrashes (hPassed 1 look hLook).2
  | stopped _ _ hLooks hPassed hEnds =>
      rw [hLooks] at hLook
      rcases getElem?_look hLook with hBefore | ⟨hLength, rfl⟩
      · exact absurd hCrashes (hPassed 1 look hBefore).2
      · rcases hEnds with hRaised | hLate | ⟨-, hDvd, -⟩
        · cases hAbort.symm.trans hRaised
        · exact absurd hEarly (Nat.not_lt.mpr hLate)
        · rw [hRatio, ← hLength, Nat.zero_dvd] at hDvd
          cases hDvd
  | crashed _ hCrashed => exact hCrashed

end WaitTrace

/-! ## The worth of the ratio -/

namespace Settings

variable {s : Settings}

/-- What holds of a wait whose looks are taken on time. -/
structure Paces (s : Settings) (now : Instant) (w : WaitTrace) : Prop where
  /-- A multiple that fits is never divided by zero, and coarse looks come at the
  positive multiples of the results interval, and at no other time. -/
  fits : s.looksPerResult < UInt32.size → w.race.crashed = false ∧
    ∀ (k : Nat) (look : Race.Look), w.looks[k]? = some look →
      look.now = now + k * s.connectPoll.nanos ∧
        (Race.isCoarse s.pollRatio k = true ↔
          now < look.now ∧ s.resultsPoll.nanos ∣ look.now - now)
  /-- A multiple of which nothing is left crashes the wait at its second look. -/
  cut : UInt32.size ∣ s.looksPerResult → ∀ look : Race.Look, w.looks[1]? = some look →
    look.abort = false → w.race.crashed = true

theorem IntervalsFit.paces (hFit : s.IntervalsFit) {ctx : RoundContext} {pool : Pool}
    {dispatched : Nat} {now : Instant} {schedule : List (Ambient × Race.Event)} {w : WaitTrace}
    (hPlay : (WaitTrace.start pool dispatched now (now + s.maxRound.nanos)).play s ctx schedule =
      some w) (hOnTime : w.OnTime) : s.Paces now w := by
  have hPaced := WaitTrace.paced_play hPlay hOnTime
  have hLooks := hFit.looks_mul
  refine ⟨fun hFits => ⟨?_, fun k look hLook => ?_⟩, fun hCut look hLook hAbort => ?_⟩
  · rw [← Bool.not_eq_true]
    intro hCrashed
    have hRatio := WaitTrace.ratio_of_crashed hPlay hCrashed
    rw [hFit.pollRatio_of_lt hFits] at hRatio
    omega
  · have hNow := hPaced.now k look hLook
    have hTaken : look.now - now = k * s.connectPoll.nanos := by
      rw [hNow, Nat.add_sub_cancel_left]
    refine ⟨hNow, ?_⟩
    rw [hFit.isCoarse_iff hFits, hTaken, ← hTaken, Nat.sub_pos_iff_lt]
  · -- The deadline of a round covers a results interval, and that is far away.
    have hNow := hPaced.now 1 look hLook
    have hMany : 1 < s.looksPerResult :=
      Nat.lt_of_lt_of_le (by decide) (Nat.le_of_dvd hLooks.1 hCut)
    have hFar : 1 * s.connectPoll.nanos < s.maxRound.nanos :=
      calc 1 * s.connectPoll.nanos
        _ < s.looksPerResult * s.connectPoll.nanos := Nat.mul_lt_mul_of_pos_right hMany hFit.positive
        _ = s.resultsPoll.nanos := hLooks.2
        _ ≤ s.maxRound.nanos := hFit.round
    refine WaitTrace.crashed_of_ratio (hFit.pollRatio_eq_zero_iff.mpr hCut) hPlay hLook hAbort ?_
    rw [hNow]
    exact Nat.add_lt_add_left hFar now

/-- Of accepted settings the ratio times the connect interval is the results
interval exactly if the multiple of the two fits in 32 bits.  Then a wait on time
looks at the results once in every results interval.  The ratio is zero exactly
if the multiple is cut to nothing, and then a wait on time crashes at its second
look unless it is aborted by then. -/
theorem ratio_exact_unless_cut (hValid : s.validate = .ok ()) :
    (s.pollRatio * s.connectPoll.nanos = s.resultsPoll.nanos ↔
        s.looksPerResult < UInt32.size) ∧
      (s.pollRatio = 0 ↔ UInt32.size ∣ s.looksPerResult) ∧
      ∀ (ctx : RoundContext) (pool : Pool) (dispatched : Nat) (now : Instant)
        (schedule : List (Ambient × Race.Event)) (w : WaitTrace),
        (WaitTrace.start pool dispatched now (now + s.maxRound.nanos)).play s ctx schedule =
          some w → w.OnTime → s.Paces now w := by
  have hFit := intervalsFit_of_validate hValid
  exact ⟨hFit.pollRatio_mul_iff, hFit.pollRatio_eq_zero_iff,
    fun _ _ _ _ _ _ hPlay hOnTime => hFit.paces hPlay hOnTime⟩

end Settings

namespace Sample

/-- Settings whose results interval is as many connect intervals as 32 bits can
no longer count. -/
def cutSettings : Settings :=
  ({} : Settings).withPolls ⟨1⟩ ⟨UInt32.size⟩

end Sample

namespace Settings

/-- Accepted settings whose ratio does not make up the results interval, for it is
zero. -/
theorem accepted_with_ratio_zero :
    Sample.cutSettings.validate = .ok () ∧ Sample.cutSettings.pollRatio = 0 ∧
      Sample.cutSettings.pollRatio * Sample.cutSettings.connectPoll.nanos ≠
        Sample.cutSettings.resultsPoll.nanos :=
  ⟨rfl, by decide, by decide⟩

/-- The usual settings have an exact ratio; and a wait under settings whose ratio
was cut to zero crashes at its second look. -/
theorem exact_by_default_and_crashed_when_cut :
    ({} : Settings).pollRatio * ({} : Settings).connectPoll.nanos =
        ({} : Settings).resultsPoll.nanos ∧
      ∃ w, Sample.wait.play Sample.cutSettings (Round.contextOf Sample.coordinator {} {})
          [(⟨0, false, false⟩, .tick), (⟨1, false, false⟩, .tick)] = some w ∧
        w.race.crashed = true := by
  have hDefault : ({} : Settings).validate = .ok () := rfl
  have hCut : Sample.cutSettings.validate = .ok () := rfl
  have hRun : (Sample.wait.play Sample.cutSettings (Round.contextOf Sample.coordinator {} {})
      [(⟨0, false, false⟩, .tick), (⟨1, false, false⟩, .tick)]).map
        (fun w => (w.looks.all fun look => look.now == look.due,
          w.looks[1]?.map Race.Look.abort)) = some (true, some false) := by decide +kernel
  obtain ⟨w, hPlay, hFacts⟩ := Option.map_eq_some_iff.mp hRun
  obtain ⟨hAll, hSecond⟩ := Prod.mk.inj hFacts
  obtain ⟨look, hLook, hAbort⟩ := Option.map_eq_some_iff.mp hSecond
  have hOnTime : w.OnTime := fun look hMem => by
    simpa using List.all_eq_true.mp hAll look hMem
  refine ⟨(ratio_exact_unless_cut hDefault).1.mpr (by decide), w, hPlay, ?_⟩
  have hPaces := (ratio_exact_unless_cut hCut).2.2 _ _ _ _ _ w hPlay hOnTime
  exact hPaces.cut (by decide) look hLook hAbort

end Settings

end RelayRace
