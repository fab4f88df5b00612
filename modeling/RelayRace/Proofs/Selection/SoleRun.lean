import RelayRace.Proofs.Selection.EarlierRuns

/-!
# One run at a time

While a single run is under way, the mark follows it: it is clear until the run
sets it, set until its loop exits, and clear from there on.  So nothing that the
callers share has to be counted, and the stage of the run tells all of it
(`CallStage.Fits`).  Any number of aborts may come and go meanwhile.

Such a run begins where all runs before it have ended.  The mark is clear there,
for it is set only while a loop is going or about to be started.
-/

namespace RelayRace

/-- How the loops and the mark stand at a stage of a run that has nobody beside
it.  Its loop is the next one to be started. -/
def CallStage.Fits (loops : List Bool) (running : Bool) (loop : Nat) : CallStage → Prop
  | .raising | .awaiting | .lowering | .marking => loops.length = loop ∧ running = false
  | .starting => loops.length = loop ∧ running = true
  | .joined own => own = loop ∧ loops[loop]? = some running
  | .returned => loops[loop]? = some false ∧ running = false
  | .dropped => loops[loop]? ≠ some true ∧ running = false

namespace Calls

variable {s after : Calls} {event : CallEvent} {number : Nat} {call : Call} {run loop : Nat}

/-! ## Between two runs -/

/-- The mark is set only while a loop is going or about to be started. -/
def MarkedForLoop (s : Calls) : Prop := s.running = true → 0 < s.aboutToStart + s.going

theorem MarkedForLoop.step (hMarked : s.MarkedForLoop) (hStep : s.step event = some after) :
    after.MarkedForLoop := by
  -- A call that has nothing to do with the start of a loop changes no count.
  have hSame : ∀ {moved : Calls} {number : Nat} {call : Call} {stage : CallStage},
      s.calls[number]? = some call → moved.calls = s.calls.set number { call with stage } →
      call.stage.hasMarked = false → stage.hasMarked = false → moved.loops = s.loops →
      moved.running = s.running → moved.MarkedForLoop := by
    intro moved number call stage hCall hCalls hBefore hAfter hLoops hRunning hMark
    have hAbout := (counts_put stage hCall hCalls).2
    rw [hBefore, hAfter] at hAbout
    have hGoing : moved.going = s.going := by rw [going, going, hLoops]
    have := hMarked (hRunning.symm.trans hMark)
    omega
  cases stepsTo_of_step hStep with
  | called kind =>
      intro hMark
      simpa [aboutToStart, CallStage.hasMarked, going] using hMarked hMark
  | raised hCall hStage | passed hCall hStage | stopped hCall hStage | lowered hCall hStage
  | finished hCall hStage | droppedEarly hCall _ hStage | droppedLate hCall _ hStage =>
      exact hSame hCall rfl (by rw [hStage]; rfl) rfl rfl rfl
  | @marked number call hCall hStage =>
      have hBound := (List.getElem?_eq_some_iff.mp hCall).1
      have hMem : { call with stage := .starting } ∈
          s.calls.set number { call with stage := .starting } :=
        List.mem_iff_getElem?.mpr ⟨number, by simp [hBound]⟩
      exact fun _ => Nat.add_pos_left (List.countP_pos_iff.mpr ⟨_, hMem, rfl⟩) _
  | started => exact fun _ => Nat.add_pos_right _ (List.count_pos_iff.mpr (by simp))
  | exited | droppedLive => exact fun hMark => absurd hMark Bool.false_ne_true

/-- No run is under way. -/
def Rests (s : Calls) : Prop :=
  ∀ (number : Nat) (call : Call), s.calls[number]? = some call → call.kind = .run →
    call.stage = .returned ∨ call.stage = .dropped

/-- A run is the only one under way, and this loop is the one it starts. -/
structure Sole (run loop : Nat) (s : Calls) : Prop where
  orderly : s.Orderly
  /-- Every other run has ended. -/
  only : ∀ {number : Nat} {call : Call}, s.calls[number]? = some call → call.kind = .run →
    number = run ∨ call.stage = .returned ∨ call.stage = .dropped
  stage : ∃ stage, s.calls[run]? = some ⟨.run, stage⟩ ∧ stage.Fits s.loops s.running loop

/-- Whoever starts a loop or has joined one is the run. -/
theorem Sole.eq_run (hSole : Sole run loop s) (hCall : s.calls[number]? = some call)
    (hStage : call.stage.isStartingUp = true ∨ ∃ own, call.stage = .joined own) :
    number = run ∧ call.kind = .run ∧ call.stage.Fits s.loops s.running loop := by
  obtain ⟨stage, hRun, hFits⟩ := hSole.stage
  have hKind : call.kind = .run := by
    cases hKind : call.kind with
    | run => rfl
    | abort => rcases hSole.orderly.aborts hCall hKind with h | h | h <;> simp [h] at hStage
  obtain rfl | hEnded | hEnded := hSole.only hCall hKind
  · cases hRun.symm.trans hCall
    exact ⟨rfl, rfl, hFits⟩
  · simp [hEnded] at hStage
  · simp [hEnded] at hStage

/-- The only loop that can be going is the run's. -/
theorem Sole.eq_loop {other : Nat} (hSole : Sole run loop s) (hLive : s.loops[other]? = some true) :
    other = loop ∧ s.calls[run]? = some ⟨.run, .joined loop⟩ := by
  obtain ⟨number, call, hCall, hJoined⟩ := hSole.orderly.owned hLive
  obtain ⟨rfl, -, hFits⟩ := hSole.eq_run hCall (.inr ⟨other, hJoined⟩)
  obtain ⟨stage, hRun, -⟩ := hSole.stage
  cases hRun.symm.trans hCall
  cases hJoined
  obtain ⟨rfl, -⟩ := hFits
  exact ⟨rfl, hRun⟩

theorem Sole.only_of_step (hSole : Sole run loop s) (hStep : s.step event = some after)
    (hOther : event ≠ .call .run) {number : Nat} {call : Call}
    (hCall : after.calls[number]? = some call) (hKind : call.kind = .run) :
    number = run ∨ call.stage = .returned ∨ call.stage = .dropped := by
  obtain ⟨hNew, -⟩ | ⟨stage, hBefore, hStage⟩ := call_came hStep hCall
  · exact absurd (hKind ▸ hNew) hOther
  · obtain hRun | hEnded := hSole.only hBefore hKind
    · exact .inl hRun
    · right
      rcases hStage with hSame | hFollows
      · rwa [hSame]
      · rcases hEnded with hEnded | hEnded <;>
          · cases hEnded
            cases hFollows

theorem stage_mover {moved : Calls} {next : CallStage} (hCall : s.calls[run]? = some call)
    (hKind : call.kind = .run)
    (hCalls : moved.calls = s.calls.set run { call with stage := next }) :
    moved.calls[run]? = some ⟨.run, next⟩ := by
  have hBound := (List.getElem?_eq_some_iff.mp hCall).1
  rw [hCalls, List.getElem?_set_self hBound, hKind]

/-- A step of a call that leaves the loops and the mark alone. -/
theorem Sole.stage_put {moved : Calls} {next : CallStage} (hSole : Sole run loop s)
    (hCall : s.calls[number]? = some call)
    (hCalls : moved.calls = s.calls.set number { call with stage := next })
    (hLoops : moved.loops = s.loops) (hRunning : moved.running = s.running)
    (hFits : call.kind = .run → call.stage.Fits s.loops s.running loop →
      next.Fits s.loops s.running loop) :
    ∃ stage, moved.calls[run]? = some ⟨.run, stage⟩ ∧
      stage.Fits moved.loops moved.running loop := by
  obtain ⟨stage, hRun, hBefore⟩ := hSole.stage
  rw [hCalls, hLoops, hRunning]
  by_cases hMover : number = run
  · subst hMover
    cases hRun.symm.trans hCall
    exact ⟨next, hCalls ▸ stage_mover hCall rfl hCalls, hFits rfl hBefore⟩
  · exact ⟨stage, by rw [List.getElem?_set_ne hMover, hRun], hBefore⟩

theorem running_of_gone {own : Nat} (hLoop : s.loops[own]? = some s.running)
    (hGone : s.loops.getD own false = false) : s.running = false := by
  simpa [List.getD_eq_getElem?_getD, hLoop] using hGone

theorem Sole.stage_of_step (hSole : Sole run loop s) (hStep : s.step event = some after) :
    ∃ stage, after.calls[run]? = some ⟨.run, stage⟩ ∧
      stage.Fits after.loops after.running loop := by
  cases stepsTo_of_step hStep with
  | called kind =>
      obtain ⟨stage, hRun, hFits⟩ := hSole.stage
      have hBound := (List.getElem?_eq_some_iff.mp hRun).1
      exact ⟨stage, (List.getElem?_append_left hBound).trans hRun, hFits⟩
  | raised hCall hStage | passed hCall hStage | lowered hCall hStage =>
      refine hSole.stage_put hCall rfl rfl rfl fun _ hFits => ?_
      rw [hStage] at hFits
      exact hFits
  | stopped hCall _ hKind =>
      exact hSole.stage_put hCall rfl rfl rfl fun hRun => nomatch hKind.symm.trans hRun
  | marked hCall hStage =>
      obtain ⟨rfl, hKind, hFits⟩ := hSole.eq_run hCall (.inl (by rw [hStage]; rfl))
      rw [hStage] at hFits
      exact ⟨.starting, stage_mover hCall hKind rfl, hFits.1, rfl⟩
  | started hCall hStage =>
      obtain ⟨rfl, hKind, hFits⟩ := hSole.eq_run hCall (.inl (by rw [hStage]; rfl))
      rw [hStage] at hFits
      obtain ⟨rfl, hMark⟩ := hFits
      exact ⟨.joined s.loops.length, stage_mover hCall hKind rfl, rfl, by simp [put, hMark]⟩
  | @finished number own call hCall hStage hGone =>
      refine hSole.stage_put hCall rfl rfl rfl fun _ hFits => ?_
      rw [hStage] at hFits
      obtain ⟨rfl, hLoop⟩ := hFits
      have hIdle := running_of_gone hLoop hGone
      exact ⟨hIdle ▸ hLoop, hIdle⟩
  | exited hLive =>
      -- Nobody else has a loop that could exit.
      obtain ⟨rfl, hRun⟩ := hSole.eq_loop (live_iff.mp hLive)
      have hBound := (List.getElem?_eq_some_iff.mp (live_iff.mp hLive)).1
      exact ⟨_, hRun, rfl, by simp [hBound]⟩
  | droppedEarly hCall hKind hStage =>
      refine hSole.stage_put hCall rfl rfl rfl fun _ hFits => ?_
      rw [hStage] at hFits
      obtain ⟨rfl, hIdle⟩ := hFits
      exact ⟨by simp, hIdle⟩
  | droppedLive hCall hKind hStage hLive =>
      obtain ⟨rfl, -, hFits⟩ := hSole.eq_run hCall (.inr ⟨_, hStage⟩)
      rw [hStage] at hFits
      obtain ⟨rfl, -⟩ := hFits
      have hBound := (List.getElem?_eq_some_iff.mp (live_iff.mp hLive)).1
      exact ⟨.dropped, stage_mover hCall hKind rfl, by simp [put, hBound], rfl⟩
  | droppedLate hCall hKind hStage hGone =>
      refine hSole.stage_put hCall rfl rfl rfl fun _ hFits => ?_
      rw [hStage] at hFits
      obtain ⟨rfl, hLoop⟩ := hFits
      have hIdle := running_of_gone hLoop hGone
      exact ⟨by simp [hLoop, hIdle], hIdle⟩

theorem Sole.step (hSole : Sole run loop s) (hStep : s.step event = some after)
    (hOther : event ≠ .call .run) : Sole run loop after where
  orderly := hSole.orderly.step hStep
  only := hSole.only_of_step hStep hOther
  stage := hSole.stage_of_step hStep

/-- The loop of the run goes until it exits or the run is dropped. -/
theorem Sole.exited_or_dropped (hSole : Sole run loop s) (hStep : s.step event = some after)
    (hBefore : s.loops[loop]? ≠ some false) (hGone : after.loops[loop]? = some false) :
    event = .exit loop ∨ after.calls[run]? = some ⟨.run, .dropped⟩ := by
  cases stepsTo_of_step hStep with
  | exited hLive => exact .inl (by rw [(hSole.eq_loop (live_iff.mp hLive)).1])
  | droppedLive hCall hKind hStage =>
      obtain ⟨rfl, -⟩ := hSole.eq_run hCall (.inr ⟨_, hStage⟩)
      exact .inr (stage_mover hCall hKind rfl)
  | started =>
      obtain hOld | ⟨-, hNew⟩ := entry_of_append_single hGone
      · exact absurd hOld hBefore
      · cases hNew
  | called | raised | passed | stopped | lowered | marked | finished | droppedEarly
  | droppedLate => exact absurd hGone hBefore

/-! ## After the loop was started -/

/-- The run has its start behind it. -/
def PastStart (s : Calls) (run : Nat) : Prop :=
  ∃ stage, s.calls[run]? = some ⟨.run, stage⟩ ∧ stage.isPastStart = true

/-- A run does not come back before its start. -/
theorem PastStart.step (hPast : s.PastStart run) (hStep : s.step event = some after) :
    after.PastStart run := by
  obtain ⟨stage, hRun, hPast⟩ := hPast
  obtain ⟨next, hAfter, rfl | hFollows⟩ := call_kept hStep hRun
  · exact ⟨_, hAfter, hPast⟩
  · refine ⟨next, hAfter, ?_⟩
    cases hFollows <;> first | rfl | cases hPast

/-- After its start nobody is starting up, for it would be the run. -/
theorem Sole.nobody_startingUp (hSole : Sole run loop s) (hPast : s.PastStart run)
    (hCall : s.calls[number]? = some call) : call.stage.isStartingUp = false := by
  obtain ⟨stage, hRun, hPast⟩ := hPast
  refine Bool.of_not_eq_true fun hUp => ?_
  obtain ⟨rfl, -⟩ := hSole.eq_run hCall (.inl hUp)
  cases hRun.symm.trans hCall
  cases stage <;> simp_all

/-- A run that has its start behind it lowers the flag no more, and starts no
loop. -/
theorem Sole.of_pastStart (hSole : Sole run loop s) (hPast : s.PastStart run)
    (hStep : s.step event = some after) :
    (s.abort = true → after.abort = true) ∧ after.loops.length = s.loops.length := by
  have hNobody := fun {number call} (hCall : s.calls[number]? = some call) =>
    hSole.nobody_startingUp hPast hCall
  cases stepsTo_of_step hStep with
  | lowered hCall hStage | started hCall hStage => simpa [hStage] using hNobody hCall
  | raised => exact ⟨fun _ => rfl, rfl⟩
  | exited | droppedLive => exact ⟨id, by simp [put]⟩
  | called | passed | stopped | marked | finished | droppedEarly | droppedLate => exact ⟨id, rfl⟩

/-- While the mark is set, an abort that has returned had returned before. -/
theorem Sole.returned_of_running (hSole : Sole run loop s) (hPast : s.PastStart run)
    (hStep : s.step event = some after) (hMark : after.running = true)
    (hReturned : after.calls[number]? = some ⟨.abort, .returned⟩) :
    s.running = true ∧ s.calls[number]? = some ⟨.abort, .returned⟩ := by
  have hNobody := fun {number call} (hCall : s.calls[number]? = some call) =>
    hSole.nobody_startingUp hPast hCall
  -- A call that moves on is not this one, if it is a run or does not return.
  have hOther : ∀ {mover : Nat} {moved : Call} (stage : CallStage),
      s.calls[mover]? = some moved → (moved.kind = .run ∨ stage ≠ .returned) →
      (s.calls.set mover { moved with stage })[number]? = some ⟨.abort, .returned⟩ →
      s.calls[number]? = some ⟨.abort, .returned⟩ := by
    intro mover moved stage hMoved hDiffers hAfter
    by_cases hMover : mover = number
    · subst hMover
      rw [List.getElem?_set_self (List.getElem?_eq_some_iff.mp hMoved).1] at hAfter
      obtain ⟨hKind, rfl⟩ := Call.mk.inj (Option.some.inj hAfter)
      simp [hKind] at hDiffers
    · rwa [List.getElem?_set_ne hMover] at hAfter
  cases stepsTo_of_step hStep with
  | called kind =>
      obtain hOld | ⟨-, hNew⟩ := entry_of_append_single hReturned
      · exact ⟨hMark, hOld⟩
      · cases hNew
  | raised hCall => exact ⟨hMark, hOther .awaiting hCall (.inr nofun) hReturned⟩
  | passed _ _ _ hIdle | stopped _ _ _ hIdle => cases hIdle.symm.trans hMark
  | lowered hCall hStage | marked hCall hStage | started hCall hStage =>
      simpa [hStage] using hNobody hCall
  | finished hCall hStage =>
      have hKind := (hSole.eq_run hCall (.inr ⟨_, hStage⟩)).2.1
      exact ⟨hMark, hOther .returned hCall (.inl hKind) hReturned⟩
  | exited | droppedLive => cases hMark
  | droppedEarly hCall hKind | droppedLate hCall hKind =>
      exact ⟨hMark, hOther .dropped hCall (.inl hKind) hReturned⟩

end Calls

end RelayRace
