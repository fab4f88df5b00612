import RelayRace.Proofs.Selection.Exclusion

/-!
# What an abort has seen the last of

A run that has its start behind it starts no loop any more, and a loop that has
exited does not go again.  So an abort that returns has seen the last of all
earlier runs of which none was still to start its loop.  Of any other it has
not: with the mark clear, that run needs nothing but its own steps to start its
loop.

The same is why starts have to lie apart for loops to go one at a time: two runs
that are starting up at once need nothing but their own steps to start a loop
each.
-/

namespace RelayRace

namespace Calls

variable {s after : Calls} {event : CallEvent} {number : Nat} {call : Call}

/-! ## Whose loops they are -/

/-- What every selector keeps, whatever its callers do. -/
structure Orderly (s : Calls) : Prop where
  /-- An abort never comes to a stage in which it could start a loop. -/
  aborts : ∀ {number : Nat} {call : Call}, s.calls[number]? = some call → call.kind = .abort →
    call.stage = .raising ∨ call.stage = .awaiting ∨ call.stage = .returned
  /-- A run joined a loop that was started. -/
  joined : ∀ {number loop : Nat} {call : Call}, s.calls[number]? = some call →
    call.stage = .joined loop → loop < s.loops.length
  /-- A run has joined every loop that is going. -/
  owned : ∀ {loop : Nat}, s.loops[loop]? = some true →
    ∃ (number : Nat) (call : Call), s.calls[number]? = some call ∧ call.stage = .joined loop

theorem orderly_fresh : Orderly {} where
  aborts hCall := by cases hCall
  joined hCall := by cases hCall
  owned hLive := by cases hLive

/-- A call that moves on keeps order if it leaves no loop behind that is going,
and joins the one it starts. -/
theorem Orderly.move {moved : Calls} {stage : CallStage} (hOrderly : s.Orderly)
    (hCall : s.calls[number]? = some call)
    (hFollows : CallStage.Follows call.kind s.loops.length call.stage stage)
    (hCalls : moved.calls = s.calls.set number { call with stage })
    (hLength : s.loops.length ≤ moved.loops.length)
    (hJoined : ∀ loop, stage = .joined loop → loop < moved.loops.length)
    (hLeft : ∀ loop : Nat, call.stage = .joined loop → moved.loops[loop]? ≠ some true)
    (hLoops : ∀ loop : Nat, moved.loops[loop]? = some true →
      s.loops[loop]? = some true ∨ stage = .joined loop) : moved.Orderly := by
  have hBound := (List.getElem?_eq_some_iff.mp hCall).1
  have hMover : moved.calls[number]? = some { call with stage } := by simp [hCalls, hBound]
  have hOther : ∀ other, number ≠ other → moved.calls[other]? = s.calls[other]? := by
    intro other hOther
    rw [hCalls, List.getElem?_set_ne hOther]
  refine ⟨?_, ?_, ?_⟩
  · intro other found hFound hKind
    by_cases hSame : number = other
    · subst hSame
      cases hMover.symm.trans hFound
      have hBefore := hOrderly.aborts hCall hKind
      revert hBefore hFollows
      generalize call.stage = before
      intro hFollows hBefore
      cases hFollows <;> simp_all
    · exact hOrderly.aborts ((hOther other hSame).symm.trans hFound) hKind
  · intro other loop found hFound hStage
    by_cases hSame : number = other
    · subst hSame
      cases hMover.symm.trans hFound
      exact hJoined loop hStage
    · have hBefore := hOrderly.joined ((hOther other hSame).symm.trans hFound) hStage
      omega
  · intro loop hLive
    obtain hBefore | hNew := hLoops loop hLive
    · obtain ⟨owner, found, hFound, hStage⟩ := hOrderly.owned hBefore
      by_cases hSame : number = owner
      · subst hSame
        cases hCall.symm.trans hFound
        exact absurd hLive (hLeft loop hStage)
      · exact ⟨owner, found, (hOther owner hSame).trans hFound, hStage⟩
    · exact ⟨number, _, hMover, hNew⟩

/-- A new call keeps order. -/
theorem Orderly.called (hOrderly : s.Orderly) (kind : CallKind) :
    ({ s with calls := s.calls ++ [{ kind := kind }] } : Calls).Orderly := by
  refine ⟨?_, ?_, ?_⟩
  · intro number call hFound hKind
    obtain hOld | ⟨-, rfl⟩ := entry_of_append_single hFound
    · exact hOrderly.aborts hOld hKind
    · exact .inl rfl
  · intro number loop call hFound hStage
    obtain hOld | ⟨-, rfl⟩ := entry_of_append_single hFound
    · exact hOrderly.joined hOld hStage
    · cases hStage
  · intro loop hLive
    obtain ⟨number, call, hFound, hStage⟩ := hOrderly.owned hLive
    have hBound := (List.getElem?_eq_some_iff.mp hFound).1
    exact ⟨number, call, (List.getElem?_append_left hBound).trans hFound, hStage⟩

theorem Orderly.step (hOrderly : s.Orderly) (hStep : s.step event = some after) :
    after.Orderly := by
  have hExit : ∀ {exiting loop : Nat}, (s.loops.set exiting false)[loop]? = some true →
      s.loops[loop]? = some true ∧ exiting ≠ loop := by
    intro exiting loop hLive
    rw [List.getElem?_set] at hLive
    split at hLive
    · split at hLive <;> cases hLive
    · exact ⟨hLive, ‹_›⟩
  cases stepsTo_of_step hStep with
  | called kind => exact hOrderly.called kind
  | raised hCall hStage =>
      exact hOrderly.move hCall (hStage ▸ .raise) rfl (Nat.le_refl _) (by simp) (by simp [hStage])
        (fun _ hLive => .inl hLive)
  | passed hCall hStage hKind =>
      exact hOrderly.move hCall (hStage ▸ .pass hKind) rfl (Nat.le_refl _) (by simp)
        (by simp [hStage]) (fun _ hLive => .inl hLive)
  | stopped hCall hStage hKind =>
      exact hOrderly.move hCall (hStage ▸ .stop hKind) rfl (Nat.le_refl _) (by simp)
        (by simp [hStage]) (fun _ hLive => .inl hLive)
  | lowered hCall hStage =>
      exact hOrderly.move hCall (hStage ▸ .lower) rfl (Nat.le_refl _) (by simp) (by simp [hStage])
        (fun _ hLive => .inl hLive)
  | marked hCall hStage =>
      exact hOrderly.move hCall (hStage ▸ .mark) rfl (Nat.le_refl _) (by simp) (by simp [hStage])
        (fun _ hLive => .inl hLive)
  | started hCall hStage =>
      refine hOrderly.move hCall (hStage ▸ .start) rfl (by simp) (by simp) (by simp [hStage]) ?_
      intro loop hLive
      obtain hOld | ⟨rfl, -⟩ := entry_of_append_single hLive
      · exact .inl hOld
      · exact .inr rfl
  | finished hCall hStage hGone =>
      refine hOrderly.move hCall (hStage ▸ .finish) rfl (Nat.le_refl _) (by simp) ?_
        (fun _ hLive => .inl hLive)
      intro loop hJoined hStill
      cases hStage.symm.trans hJoined
      cases hGone.symm.trans (live_iff.mpr hStill)
  | exited hLive =>
      exact
        { aborts := hOrderly.aborts
          joined := fun hFound hStage => by simpa using hOrderly.joined hFound hStage
          owned := fun hStill => hOrderly.owned (hExit hStill).1 }
  | droppedEarly hCall hKind hStage =>
      exact hOrderly.move hCall (hStage ▸ .leave hKind) rfl (Nat.le_refl _) (by simp)
        (by simp [hStage]) (fun _ hLive => .inl hLive)
  | droppedLive hCall hKind hStage hLive =>
      refine hOrderly.move hCall (hStage ▸ .leaveLoop) rfl (by simp [put]) (by simp) ?_
        (fun _ hStill => .inl (hExit hStill).1)
      intro loop hJoined hStill
      cases hStage.symm.trans hJoined
      exact (hExit hStill).2 rfl
  | droppedLate hCall hKind hStage hGone =>
      refine hOrderly.move hCall (hStage ▸ .leaveLoop) rfl (Nat.le_refl _) (by simp) ?_
        (fun _ hLive => .inl hLive)
      intro loop hJoined hStill
      cases hStage.symm.trans hJoined
      cases hGone.symm.trans (live_iff.mpr hStill)

theorem Orderly.play {schedule : List CallEvent} {t : Calls} (hOrderly : s.Orderly)
    (hPlay : playSchedule Calls.step s schedule = some t) : t.Orderly :=
  playSchedule_keeps schedule (fun _ _ _ _ hBefore hStep => hBefore.step hStep) hOrderly hPlay

/-- A call stays one of its kind, and one whose start is behind it starts no loop
any more. -/
theorem call_play {schedule : List CallEvent} {t : Calls}
    (hCall : s.calls[number]? = some call)
    (hPlay : playSchedule Calls.step s schedule = some t) :
    ∃ stage, t.calls[number]? = some { call with stage } ∧
      (call.stage.isPastStart = true → stage.isPastStart = true ∧
        ∀ loop, stage = .joined loop → call.stage = .joined loop) := by
  refine playSchedule_keeps (P := fun u => ∃ stage, u.calls[number]? = some { call with stage } ∧
    (call.stage.isPastStart = true → stage.isPastStart = true ∧
      ∀ loop, stage = .joined loop → call.stage = .joined loop)) schedule ?_
    ⟨call.stage, hCall, fun hPast => ⟨hPast, fun _ hStage => hStage⟩⟩ hPlay
  rintro event - before next ⟨stage, hBefore, hPast⟩ hStep
  obtain ⟨later, hLater, rfl | hFollows⟩ := call_kept hStep hBefore
  · exact ⟨_, hLater, hPast⟩
  · refine ⟨later, hLater, fun hWas => ?_⟩
    obtain ⟨hStill, hSame⟩ := hPast hWas
    cases hFollows <;> simp_all

/-- A loop that has exited does not go again. -/
theorem gone_play {schedule : List CallEvent} {t : Calls} {loop : Nat}
    (hPlay : playSchedule Calls.step s schedule = some t)
    (hGone : s.loops[loop]? = some false) : t.loops[loop]? = some false :=
  playSchedule_keeps (P := fun u => u.loops[loop]? = some false) schedule
    (fun _ _ _ _ hBefore hStep => gone_of_step hStep hBefore) hGone hPlay

/-! ## Starting a loop -/

/-- A run can start its loop, whatever the others wait for. -/
def CanStart (s : Calls) (number : Nat) (call : Call) : Prop :=
  ∃ (schedule : List CallEvent) (t : Calls), playSchedule Calls.step s schedule = some t ∧
    t.loops = s.loops ++ [true] ∧
    t.calls = s.calls.set number { call with stage := .joined s.loops.length }

theorem step_advance (hCall : s.calls[number]? = some call) :
    s.step (.advance number) = s.advance number call := by
  simp only [step, hCall]

/-- A run can start its loop if it can after a step of its own. -/
theorem canStart_of_advance {stage : CallStage} (hCall : s.calls[number]? = some call)
    (hAdvance : s.advance number call = some after)
    (hCalls : after.calls = s.calls.set number { call with stage })
    (hLoops : after.loops = s.loops)
    (hNext : after.calls[number]? = some { call with stage } →
      after.CanStart number { call with stage }) : s.CanStart number call := by
  have hBound := (List.getElem?_eq_some_iff.mp hCall).1
  obtain ⟨schedule, t, hPlay, hStarted, hJoined⟩ := hNext (by simp [hCalls, hBound])
  refine ⟨.advance number :: schedule, t, ?_, ?_, ?_⟩
  · rw [playSchedule_cons, step_advance hCall, hAdvance]
    exact hPlay
  · rw [hStarted, hLoops]
  · rw [hJoined, hCalls, hLoops, List.set_set]

theorem canStart_of_starting (hCall : s.calls[number]? = some call)
    (hStage : call.stage = .starting) : s.CanStart number call := by
  have hAdvance : s.advance number call =
      some { s.put number call (.joined s.loops.length) with loops := s.loops ++ [true] } := by
    simp only [advance, hStage]
  refine ⟨[.advance number],
    { s.put number call (.joined s.loops.length) with loops := s.loops ++ [true] }, ?_, rfl, rfl⟩
  rw [playSchedule_cons, step_advance hCall, hAdvance]
  rfl

theorem canStart_of_marking (hCall : s.calls[number]? = some call)
    (hStage : call.stage = .marking) : s.CanStart number call := by
  have hAdvance : s.advance number call =
      some { s.put number call .starting with running := true } := by
    simp only [advance, hStage]
  exact canStart_of_advance hCall hAdvance rfl rfl fun hNext => canStart_of_starting hNext rfl

theorem canStart_of_lowering (hCall : s.calls[number]? = some call)
    (hStage : call.stage = .lowering) : s.CanStart number call := by
  have hAdvance : s.advance number call =
      some { s.put number call .marking with abort := false } := by
    simp only [advance, hStage]
  exact canStart_of_advance hCall hAdvance rfl rfl fun hNext => canStart_of_marking hNext rfl

theorem canStart_of_awaiting (hIdle : s.running = false) (hCall : s.calls[number]? = some call)
    (hKind : call.kind = .run) (hStage : call.stage = .awaiting) : s.CanStart number call := by
  have hAdvance : s.advance number call = some (s.put number call .lowering) := by
    simp only [advance, hStage, hIdle, hKind, Bool.false_eq_true, if_false]
  exact canStart_of_advance hCall hAdvance rfl rfl fun hNext => canStart_of_lowering hNext rfl

theorem canStart_of_raising (hIdle : s.running = false) (hCall : s.calls[number]? = some call)
    (hKind : call.kind = .run) (hStage : call.stage = .raising) : s.CanStart number call := by
  have hAdvance : s.advance number call =
      some { s.put number call .awaiting with abort := true } := by
    simp only [advance, hStage]
  exact canStart_of_advance hCall hAdvance rfl rfl fun hNext =>
    canStart_of_awaiting (s := { s.put number call .awaiting with abort := true }) hIdle hNext
      hKind rfl

theorem canStart_of_isStartingUp (hCall : s.calls[number]? = some call)
    (hUp : call.stage.isStartingUp = true) : s.CanStart number call := by
  cases hStage : call.stage with
  | lowering => exact canStart_of_lowering hCall hStage
  | marking => exact canStart_of_marking hCall hStage
  | starting => exact canStart_of_starting hCall hStage
  | raising | awaiting | joined | returned | dropped => simp [hStage] at hUp

/-- While no loop is going, every run can start its loop that has not yet done
so. -/
theorem canStart_of_idle (hIdle : s.running = false) (hCall : s.calls[number]? = some call)
    (hKind : call.kind = .run) (hAhead : call.stage.isPastStart = false) :
    s.CanStart number call := by
  cases hStage : call.stage with
  | raising => exact canStart_of_raising hIdle hCall hKind hStage
  | awaiting => exact canStart_of_awaiting hIdle hCall hKind hStage
  | lowering | marking | starting => exact canStart_of_isStartingUp hCall (by simp [hStage])
  | joined | returned | dropped => simp [hStage] at hAhead

/-! ## The two promises -/

/-- Two runs that are starting up at the same time can both start a loop. -/
theorem two_loops_of_overlapping_starts (hOverlap : 2 ≤ s.startingUp) :
    ∃ (schedule : List CallEvent) (t : Calls),
      playSchedule Calls.step s schedule = some t ∧ 2 ≤ t.going := by
  -- One run that is starting up starts its loop, and one fewer is starting up then.
  have hOne : ∀ {s : Calls}, 0 < s.startingUp → ∃ (schedule : List CallEvent) (t : Calls),
      playSchedule Calls.step s schedule = some t ∧ t.going = s.going + 1 ∧
        t.startingUp + 1 = s.startingUp := by
    intro s hSome
    obtain ⟨call, hMem, hUp⟩ := List.countP_pos_iff.mp hSome
    obtain ⟨number, hCall⟩ := List.mem_iff_getElem?.mp hMem
    obtain ⟨schedule, t, hPlay, hLoops, hCalls⟩ := canStart_of_isStartingUp hCall hUp
    have hCounts := (counts_put _ hCall hCalls).1
    have hJoined : (CallStage.joined s.loops.length).isStartingUp = false := rfl
    rw [hUp, hJoined] at hCounts
    exact ⟨schedule, t, hPlay, by simp [going, hLoops], by simpa using hCounts⟩
  obtain ⟨first, middle, hFirst, hMiddle, hLeft⟩ := hOne (s := s) (by omega)
  obtain ⟨second, t, hSecond, hGoing, -⟩ := hOne (s := middle) (by omega)
  refine ⟨first ++ second, t, ?_, by omega⟩
  rw [playSchedule_append, hFirst]
  exact hSecond

/-- Every loop that is going is one that a run joined, and no run that was called
before this call. -/
def OnlyLaterGo (s : Calls) (number : Nat) : Prop :=
  ∀ loop : Nat, s.loops[loop]? = some true →
    (∃ (run : Nat) (call : Call), s.calls[run]? = some call ∧ call.stage = .joined loop) ∧
      ∀ (run : Nat) (call : Call), s.calls[run]? = some call → call.stage = .joined loop →
        number < run

/-- While no loop is going and every earlier run has its start behind it, no
loop of an earlier run goes from there on. -/
theorem onlyLaterGo_of_pastStart {returned t : Calls} {later : List CallEvent}
    (hOrderly : returned.Orderly) (hNone : returned.going = 0)
    (hAbort : returned.calls[number]? = some call) (hKind : call.kind = .abort)
    (hPast : ∀ (run : Nat) (call : Call), run < number → returned.calls[run]? = some call →
      call.kind = .run → call.stage.isPastStart = true)
    (hPlay : playSchedule Calls.step returned later = some t) : t.OnlyLaterGo number := by
  have hLater := hOrderly.play hPlay
  intro loop hLive
  refine ⟨hLater.owned hLive, fun run owner hOwner hJoined => Nat.lt_of_not_le fun hEarlier => ?_⟩
  have hBound := (List.getElem?_eq_some_iff.mp hAbort).1
  obtain ⟨before, hBefore⟩ : ∃ before, returned.calls[run]? = some before :=
    ⟨_, List.getElem?_eq_getElem (by omega)⟩
  obtain ⟨stage, hAfter, hKept⟩ := call_play hBefore hPlay
  cases hAfter.symm.trans hOwner
  cases hRun : before.kind with
  | abort =>
      -- An abort never joins a loop.
      have hStages := hLater.aborts hAfter hRun
      simp_all
  | run =>
      have hOther : run ≠ number := by
        rintro rfl
        cases hBefore.symm.trans hAbort
        cases hRun.symm.trans hKind
      have hWas := (hKept (hPast run before (by omega) hBefore hRun)).2 loop hJoined
      have hStarted := hOrderly.joined hBefore hWas
      have hGone : returned.loops[loop]? = some false := by
        rw [going, List.count_eq_zero] at hNone
        rw [List.getElem?_eq_getElem hStarted, Option.some.injEq, ← Bool.not_eq_true]
        intro hGoing
        exact hNone (hGoing ▸ List.getElem_mem hStarted)
      cases (gone_play hPlay hGone).symm.trans hLive

/-- As long as the starts of the runs lie apart, at most one loop is going, and
the mark tells whether one is going or about to be started.  When an abort then
returns, no loop of an earlier run goes from there on, whatever happens,
exactly if each earlier run has its start behind it. -/
theorem one_loop_while_starts_lie_apart {schedule : List CallEvent}
    (hPlay : playSchedule Calls.step {} schedule = some s)
    (hApart : StartsApart {} schedule) :
    s.going ≤ 1 ∧ (s.running = true ↔ 0 < s.aboutToStart + s.going) ∧
      ∀ {number : Nat} {returned : Calls}, s.calls[number]? = some ⟨.abort, .awaiting⟩ →
        s.step (.advance number) = some returned →
          ((∀ later t, playSchedule Calls.step returned later = some t → t.OnlyLaterGo number) ↔
            ∀ (run : Nat) (call : Call), run < number → s.calls[run]? = some call →
              call.kind = .run → call.stage.isPastStart = true) := by
  have hExclusive := exclusive_fresh.play hApart hPlay
  have hOrderly := orderly_fresh.play hPlay
  have hAlone := hExclusive.alone
  refine ⟨by omega, hExclusive.mark, ?_⟩
  intro number returned hAbort hReturn
  have hOrder := hOrderly.step hReturn
  have hIdle : s.running = false := by
    cases hMark : s.running with
    | false => rfl
    | true => simp [step_advance hAbort, advance, hMark] at hReturn
  have hNone : s.going = 0 := by
    have hClear : ¬ 0 < s.aboutToStart + s.going := by simp [← hExclusive.mark, hIdle]
    omega
  rw [step_advance hAbort] at hReturn
  simp only [advance, hIdle, Bool.false_eq_true, if_false, Option.some.injEq] at hReturn
  subst hReturn
  have hBound := (List.getElem?_eq_some_iff.mp hAbort).1
  have hOthers : ∀ run, run < number →
      (s.put number ⟨.abort, .awaiting⟩ .returned).calls[run]? = s.calls[run]? :=
    fun run hEarlier => List.getElem?_set_ne (by omega)
  constructor
  · intro hSafe run call hEarlier hCall hRun
    refine Bool.of_not_eq_false fun hAhead => ?_
    obtain ⟨later, t, hStart, hLoops, hCalls⟩ := canStart_of_idle
      (s := s.put number ⟨.abort, .awaiting⟩ .returned) hIdle ((hOthers run hEarlier).trans hCall)
      hRun hAhead
    have hLive : t.loops[s.loops.length]? = some true := by simp [hLoops, put]
    have hStarter : t.calls[run]? = some { call with stage := .joined s.loops.length } := by
      have hRunBound : run < s.calls.length := by omega
      simp [hCalls, put, hRunBound]
    have hAfter := (hSafe later t hStart s.loops.length hLive).2 run _ hStarter rfl
    omega
  · intro hPast later t hLater
    have hReturned : (s.put number ⟨.abort, .awaiting⟩ .returned).calls[number]? =
        some ⟨.abort, .returned⟩ := by
      simp [put, hBound]
    refine onlyLaterGo_of_pastStart hOrder hNone hReturned rfl ?_ hLater
    intro run call hEarlier hCall
    exact hPast run call hEarlier ((hOthers run hEarlier).symm.trans hCall)

/-- An abort called while the first run has its loop returns when that loop has
exited, and no loop of an earlier run goes after it. -/
theorem abort_outlasts_the_run_before_it :
    let schedule : List CallEvent :=
      [.call .run, .advance 0, .advance 0, .advance 0, .advance 0, .advance 0, .call .abort,
        .advance 1, .exit 0]
    ∃ s returned, playSchedule Calls.step {} schedule = some s ∧ StartsApart {} schedule ∧
      s.step (.advance 1) = some returned ∧ s.going ≤ 1 ∧
      ∀ later t, playSchedule Calls.step returned later = some t → t.OnlyLaterGo 1 := by
  intro schedule
  have hApart : StartsApart {} schedule := by decide
  refine ⟨_, _, rfl, hApart, rfl, ?_, ?_⟩
  · exact (one_loop_while_starts_lie_apart rfl hApart).1
  · refine ((one_loop_while_starts_lie_apart rfl hApart).2.2 rfl rfl).mpr ?_
    intro run call hEarlier hCall hRun
    obtain rfl : run = 0 := by omega
    cases hCall
    rfl

/-- Two runs that look at the mark before either sets it both start a loop.  And
a run that waits for the loop of another when an abort is called may go on after
the abort has returned, and start its own. -/
theorem overlapping_starts_make_two_loops :
    (∃ s, playSchedule Calls.step {}
        [.call .run, .call .run, .advance 0, .advance 0, .advance 1, .advance 1, .advance 0,
          .advance 0, .advance 0, .advance 1, .advance 1, .advance 1] = some s ∧
      s.loops = [true, true]) ∧
    ∃ returned t, playSchedule Calls.step {}
        [.call .run, .advance 0, .advance 0, .advance 0, .advance 0, .advance 0, .call .run,
          .advance 1, .call .abort, .advance 2, .exit 0, .advance 2] = some returned ∧
      returned.calls[2]? = some ⟨.abort, .returned⟩ ∧
      playSchedule Calls.step returned [.advance 1, .advance 1, .advance 1, .advance 1] = some t ∧
      t.calls[1]? = some ⟨.run, .joined 1⟩ ∧ t.loops[1]? = some true :=
  ⟨⟨_, rfl, rfl⟩, _, _, rfl, rfl, rfl, rfl, rfl⟩

end Calls

end RelayRace
