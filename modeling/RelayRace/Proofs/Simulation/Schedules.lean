import RelayRace.Proofs.Selection.Selector
import RelayRace.Simulation.Subjects

/-!
# What a simulation plays is a schedule

A simulation settles who goes next: a call that can move on, then the loop, then
whoever is due from outside.  So it plays one of the interleavings of
`Selector.step`, and what holds of every schedule holds of what it plays.

Simulations in which a run is dropped are left out.  A simulation records the
loop of such a run as over, while a selector leaves it as it was when it was
ended by force.
-/

namespace RelayRace.Simulation.LoopRun

/-- A simulated selector without the rest of the simulation. -/
def selector (r : LoopRun) (milestones : List Milestone) : Selector where
  calls := r.calls
  coordinator := r.coordinator
  phases := r.phases
  milestones := milestones

/-- What a simulated selector keeps that is not dropped. -/
structure Settled (r : LoopRun) : Prop where
  length : r.phases.length = r.calls.loops.length
  /-- The loops that are going are those that are not over. -/
  live : ∀ {loop : Nat} {phase : LoopPhase}, r.phases[loop]? = some phase →
    r.calls.loops[loop]? = some (isLive phase)
  /-- Nobody is going to be dropped. -/
  kept : ∀ cue ∈ r.cues, cue.kind ≠ .drop

variable {play after : Play} {r next : LoopRun} {milestones : List Milestone}

theorem isOver_of_not_isLive {phase : LoopPhase} (hOver : isLive phase = false) :
    phase.isOver = true := by
  cases phase <;> first | rfl | cases hOver

/-! ## One act -/

/-- A simulated selector comes to another by a schedule. -/
def ComesTo (r next : LoopRun) (milestones : List Milestone) : Prop :=
  next.Settled ∧ next.request = r.request ∧ ∃ schedule more,
    (r.selector milestones).play (fun _ => r.request) schedule = some (next.selector more)

theorem selector_notify {event : CallEvent} {calls : Calls}
    (hStep : r.calls.step event = some calls) (milestones : List Milestone) :
    (r.notify event).selector milestones = (r.selector milestones).notified calls := by
  simp only [LoopRun.notify, hStep]
  rfl

theorem Settled.notify {event : CallEvent} {calls : Calls} (hSettled : r.Settled)
    (hStep : r.calls.step event = some calls)
    (hEvent : (∃ kind, event = .call kind) ∨ ∃ number, event = .advance number) :
    (r.notify event).Settled := by
  have hLength := hSettled.length
  simp only [LoopRun.notify, hStep]
  rcases Calls.loops_of_caller hStep hEvent with hSame | hStarted
  · have hNone : ¬ r.phases.length < calls.loops.length := by
      rw [hSame]
      omega
    simp only [hNone, if_false]
    refine ⟨hSame ▸ hLength, fun hPhase => ?_, hSettled.kept⟩
    rw [hSame]
    exact hSettled.live hPhase
  · have hOne : r.phases.length < calls.loops.length := by
      rw [hStarted, List.length_append, List.length_singleton]
      omega
    simp only [hOne, if_true]
    refine ⟨?_, fun {loop phase} hPhase => ?_, hSettled.kept⟩
    · simp [hStarted, hLength]
    · rw [hStarted]
      obtain hOld | ⟨rfl, rfl⟩ := Calls.entry_of_append_single hPhase
      · have hBound := (List.getElem?_eq_some_iff.mp hOld).1
        rw [List.getElem?_append_left (by omega)]
        exact hSettled.live hOld
      · rw [hLength, List.getElem?_concat_length]
        rfl

/-- A caller calls or moves on. -/
theorem comesTo_notify {event : CallEvent} {calls : Calls} (hSettled : r.Settled)
    (hStep : r.calls.step event = some calls)
    (hEvent : (∃ kind, event = .call kind) ∨ ∃ number, event = .advance number)
    (milestones : List Milestone) : r.ComesTo (r.notify event) milestones := by
  refine ⟨hSettled.notify hStep hEvent, ?_, ?_⟩
  · simp only [LoopRun.notify, hStep]
  · refine ⟨[.call event], milestones, ?_⟩
    have hAllows : (r.selector milestones).allows event = true := by
      obtain ⟨kind, rfl⟩ | ⟨number, rfl⟩ := hEvent <;> rfl
    rw [selector_notify hStep, Selector.play, playSchedule_cons,
      Selector.step_call hAllows hStep]
    rfl

theorem isLive_of_live? {number : Nat} {phase : LoopPhase}
    (hLive : r.live? = some (number, phase)) :
    r.phases[number]? = some phase ∧ isLive phase = true := by
  unfold live? at hLive
  split at hLive
  · rename_i hFirst
    obtain ⟨hBound, hIsLive, -⟩ := List.findIdx?_eq_some_iff_getElem.mp hFirst
    rw [List.getElem?_eq_getElem hBound] at hLive
    cases hLive
    exact ⟨List.getElem?_eq_getElem hBound, hIsLive⟩
  · cases hLive

section Loop

variable {number : Nat} {phase later : LoopPhase}

theorem setPhase_of_live (hLater : isLive later = true) :
    r.setPhase number later = { r with phases := r.phases.set number later } := by
  simp only [setPhase, hLater, if_true]

/-- A loop that is over exits. -/
theorem setPhase_of_over (hSettled : r.Settled) (hGoing : r.calls.loops[number]? = some true)
    (hOver : isLive later = false) :
    r.setPhase number later =
      { r with
        phases := r.phases.set number later
        calls :=
          { r.calls with loops := r.calls.loops.set number false, running := false } } := by
  have hExit : r.calls.step (.exit number) =
      some { r.calls with loops := r.calls.loops.set number false, running := false } :=
    if_pos (Calls.live_iff.mpr hGoing)
  have hNone : ¬ (r.phases.set number later).length <
      (r.calls.loops.set number false).length := by
    rw [List.length_set, List.length_set, hSettled.length]
    exact Nat.lt_irrefl _
  simp only [setPhase, hOver, Bool.false_eq_true, if_false, LoopRun.notify, hExit, hNone]

/-- The loop that goes on comes to another phase. -/
theorem Settled.setPhase (hSettled : r.Settled) (hPhase : r.phases[number]? = some phase)
    (hGoing : r.calls.loops[number]? = some true) : (r.setPhase number later).Settled := by
  have hBound := (List.getElem?_eq_some_iff.mp hGoing).1
  have hBoundPhase := (List.getElem?_eq_some_iff.mp hPhase).1
  cases hLater : isLive later with
  | true =>
      rw [setPhase_of_live hLater]
      refine ⟨by simpa using hSettled.length, fun {loop found} hFound => ?_, hSettled.kept⟩
      by_cases hLoop : number = loop
      · subst hLoop
        rw [List.getElem?_set_self hBoundPhase] at hFound
        rw [← Option.some.inj hFound, hLater, hGoing]
      · rw [List.getElem?_set_ne hLoop] at hFound
        exact hSettled.live hFound
  | false =>
      rw [setPhase_of_over hSettled hGoing hLater]
      refine ⟨by simpa using hSettled.length, fun {loop found} hFound => ?_, hSettled.kept⟩
      by_cases hLoop : number = loop
      · subst hLoop
        rw [List.getElem?_set_self hBoundPhase] at hFound
        rw [← Option.some.inj hFound, hLater]
        exact List.getElem?_set_self hBound
      · rw [List.getElem?_set_ne hLoop] at hFound
        exact (List.getElem?_set_ne hLoop).trans (hSettled.live hFound)

/-- Something happens in the loop that goes on. -/
theorem comesTo_setPhase {now : Instant} {event : LoopEvent} {c : Coordinator} {acts : List Act}
    (hSettled : r.Settled) (hPhase : r.phases[number]? = some phase)
    (hGoing : r.calls.loops[number]? = some true)
    (hLoop : RunLoop.step r.coordinator r.request ⟨now, r.calls.abort, r.stop⟩ phase event =
      some (c, later, acts)) (milestones : List Milestone) :
    r.ComesTo (({ r with coordinator := c } : LoopRun).setPhase number later) milestones := by
  have hChanged : ({ r with coordinator := c } : LoopRun).Settled :=
    ⟨hSettled.length, hSettled.live, hSettled.kept⟩
  have hNext := @Settled.setPhase _ number phase later hChanged hPhase hGoing
  have hStep := @Selector.step_loop (fun _ => r.request) (r.selector milestones) number now r.stop
    event phase later c acts hGoing hPhase hLoop
  cases hLater : isLive later with
  | true =>
      rw [setPhase_of_live hLater] at hNext ⊢
      refine ⟨hNext, rfl, [.loop number now r.stop event],
        milestones ++ Milestone.passed r.coordinator phase later, ?_⟩
      rw [Selector.play, playSchedule_cons, hStep]
      rfl
  | false =>
      let reached : LoopRun := { r with coordinator := c, phases := r.phases.set number later }
      have hExit : reached.calls.step (.exit number) =
          some { r.calls with loops := r.calls.loops.set number false, running := false } :=
        if_pos (Calls.live_iff.mpr hGoing)
      have hAllows : ((r.selector milestones).reached number phase later c).allows
          (.exit number) = true := by
        have hBound := (List.getElem?_eq_some_iff.mp hPhase).1
        exact (Option.any_eq_true _ _).mpr
          ⟨later, List.getElem?_set_self hBound, isOver_of_not_isLive hLater⟩
      have hEq : ({ r with coordinator := c } : LoopRun).setPhase number later =
          reached.notify (.exit number) := by
        simp only [LoopRun.setPhase, hLater, Bool.false_eq_true, if_false, reached]
      rw [hEq] at hNext ⊢
      refine ⟨hNext, by simp only [LoopRun.notify, hExit, reached],
        [.loop number now r.stop event, .call (.exit number)],
        milestones ++ Milestone.passed r.coordinator phase later, ?_⟩
      rw [selector_notify hExit, Selector.play, playSchedule_cons, hStep, Option.bind_some,
        playSchedule_cons, Selector.step_call hAllows hExit]
      rfl

end Loop

theorem comesTo_loopAct (hSettled : r.Settled) (hAct : loopAct play r = some (after, next))
    (milestones : List Milestone) : r.ComesTo next milestones := by
  unfold loopAct at hAct
  split at hAct
  · cases hAct
  · rename_i number phase hLive
    obtain ⟨hPhase, hIsLive⟩ := isLive_of_live? hLive
    have hGoing : r.calls.loops[number]? = some true := hIsLive ▸ hSettled.live hPhase
    split at hAct
    · cases hAct
    · split at hAct
      · rename_i hLoop
        cases hAct
        exact comesTo_setPhase hSettled hPhase hGoing hLoop milestones
      · cases hAct
        exact ⟨hSettled, rfl, [], milestones, rfl⟩

theorem mem_of_takeCue {κ : Type} {now : Instant} {cues rest : List (Cue κ)} {kind : κ}
    (hTake : takeCue now cues = some (kind, rest)) :
    (∃ cue ∈ cues, cue.kind = kind) ∧ ∀ cue ∈ rest, cue ∈ cues := by
  induction cues generalizing rest with
  | nil => cases hTake
  | cons first others ih =>
      unfold takeCue at hTake
      split at hTake
      · cases hTake
        exact ⟨⟨first, List.mem_cons_self, rfl⟩, fun _ hMem => List.mem_cons_of_mem _ hMem⟩
      · obtain ⟨⟨found, left⟩, hLater, hEq⟩ := Option.map_eq_some_iff.mp hTake
        cases hEq
        obtain ⟨⟨cue, hMem, hKind⟩, hLeft⟩ := ih hLater
        refine ⟨⟨cue, List.mem_cons_of_mem _ hMem, hKind⟩, fun other hOther => ?_⟩
        rcases List.mem_cons.mp hOther with rfl | hOther
        · exact List.mem_cons_self
        · exact List.mem_cons_of_mem _ (hLeft other hOther)

/-- Somebody outside does what is due. -/
theorem comesTo_follow {cue : RunCue} {rest : List (Cue RunCue)} (hSettled : r.Settled)
    (hCue : takeCue play.now r.cues = some (cue, rest))
    (milestones : List Milestone) : r.ComesTo (follow play r rest cue).2 milestones := by
  obtain ⟨⟨taken, hTaken, hKind⟩, hRest⟩ := mem_of_takeCue hCue
  have hKept : ∀ cue ∈ rest, cue.kind ≠ .drop := fun cue hMem => hSettled.kept cue (hRest cue hMem)
  have hLeft : ∀ {stop before : Bool},
      ({ r with cues := rest, stop, runningBefore := before } : LoopRun).Settled :=
    ⟨hSettled.length, hSettled.live, hKept⟩
  cases cue with
  | raiseStop => exact ⟨hLeft, rfl, [], milestones, rfl⟩
  | callAbort =>
      exact comesTo_notify (r := { r with cues := rest }) hLeft rfl (.inl ⟨_, rfl⟩) milestones
  | callRun =>
      exact comesTo_notify (r := { r with cues := rest, runningBefore := r.calls.running }) hLeft
        rfl (.inl ⟨_, rfl⟩) milestones
  | drop => exact absurd hKind (hSettled.kept taken hTaken)

theorem comesTo_act (hSettled : r.Settled) (hAct : act play r = some (after, next))
    (milestones : List Milestone) : r.ComesTo next milestones := by
  unfold act at hAct
  split at hAct
  · rename_i number hReady
    cases hAct
    have hSome := List.find?_some hReady
    obtain ⟨calls, hStep⟩ := Option.isSome_iff_exists.mp hSome
    exact comesTo_notify hSettled hStep (.inr ⟨number, rfl⟩) milestones
  · split at hAct
    · rename_i hLoop
      cases hAct
      exact comesTo_loopAct hSettled hLoop milestones
    · split at hAct
      · rename_i hCue
        have hFollow := comesTo_follow hSettled hCue milestones
        rwa [Option.some.inj hAct] at hFollow
      · cases hAct

/-! ## A whole simulation -/

theorem ComesTo.trans {middle : LoopRun} (hFirst : r.ComesTo middle milestones)
    (hSecond : ∀ milestones, middle.ComesTo next milestones) : r.ComesTo next milestones := by
  obtain ⟨-, hRequest, first, more, hPlay⟩ := hFirst
  obtain ⟨hSettled, hSame, second, most, hLater⟩ := hSecond more
  refine ⟨hSettled, hSame.trans hRequest, first ++ second, most, ?_⟩
  rw [Selector.play, playSchedule_append, ← Selector.play, hPlay, Option.bind_some, ← hRequest]
  exact hLater

/-- Whatever is simulated of a selector that is not dropped is a schedule. -/
theorem comesTo_playIn {horizon : Instant} {fuel : Nat} (hSettled : r.Settled)
    (hPlay : subject.playIn horizon fuel play r = some (after, next))
    (milestones : List Milestone) : r.ComesTo next milestones := by
  induction fuel generalizing play r milestones with
  | zero => cases hPlay
  | succ fuel ih =>
      unfold Subject.playIn at hPlay
      split at hPlay
      · cases hPlay
        exact ⟨hSettled, rfl, [], milestones, rfl⟩
      · split at hPlay
        · rename_i hAct
          have hFirst := comesTo_act hSettled hAct milestones
          exact hFirst.trans fun more => ih hFirst.1 hPlay more
        · split at hPlay
          · split at hPlay
            · exact ih hSettled hPlay milestones
            · cases hPlay
          · cases hPlay

/-- What a simulated run of a fresh selector comes to, some schedule comes to that
begins with the run. -/
theorem schedule_of_play {c : Coordinator} {request : SelectionRequest} {stop : Bool}
    {cues : List (Cue RunCue)} (hKept : ∀ cue ∈ cues, cue.kind ≠ .drop)
    (hPlay : subject.play play
      { coordinator := c, request, calls := { calls := [⟨.run, .raising⟩] }, stop, cues } =
        some (after, next)) :
    ∃ schedule more, Selector.play (fun _ => request) { coordinator := c }
      (.call (.call .run) :: schedule) = some (next.selector more) := by
  have hSettled : Settled
      { coordinator := c, request, calls := { calls := [⟨.run, .raising⟩] }, stop, cues } :=
    ⟨rfl, (fun hPhase => by cases hPhase), hKept⟩
  obtain ⟨-, -, schedule, more, hSchedule⟩ := comesTo_playIn hSettled hPlay []
  exact ⟨schedule, more, hSchedule⟩

end RelayRace.Simulation.LoopRun
