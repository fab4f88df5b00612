import Mathlib.Data.List.Induction
import RelayRace.Proofs.Selection.Breaches
import RelayRace.Proofs.Selection.Dispatch

/-!
# Nothing happens before there is a network

A round asks whether there is a network, and as long as there is none it sleeps and
asks again.  What it has done so far is then to have asked, and to have told once that
it waits (`Waits`).  It leaves that state in two ways only: it is called off by the
first raised reading of its signal, having changed nothing but the statistics
(`Fails`), or it passes with a look that finds a network while the signal reads clear
(`Passes`), and never comes back.
-/

namespace RelayRace

/-! ## The acts of the gate -/

/-- Whether an act is one of those that a round makes on its way to the stored list. -/
def Act.ofGate : Act → Bool
  | .checkedConnectivity | .refreshedResolvers | .readList | .noted .awaitingConnectivity => true
  | _ => false

/-- Acts among which there is none of the gate. -/
def PastGate (acts : List Act) : Prop := ∀ act ∈ acts, act.ofGate = false

theorem PastGate.append {acts more : List Act} (hActs : PastGate acts) (hMore : PastGate more) :
    PastGate (acts ++ more) := by
  intro act hMem
  rcases List.mem_append.mp hMem with hIn | hIn
  · exact hActs act hIn
  · exact hMore act hIn

theorem PastGate.count_eq_zero {acts : List Act} (hPast : PastGate acts) {act : Act}
    (hGate : act.ofGate = true) : acts.count act = 0 := by
  refine List.count_eq_zero.mpr fun hMem => ?_
  rw [hPast act hMem] at hGate
  cases hGate

theorem pastGate_of_conclusion {acts : List Act} (hActs : ∀ act ∈ acts, act.OfConclusion) :
    PastGate acts := by
  intro act hMem
  have hAct := hActs act hMem
  cases act with
  | noted notice => cases notice <;> first | rfl | cases hAct
  | movedToFront | closed => rfl
  | _ => cases hAct

/-- A race makes no act of the gate. -/
theorem Race.pastGate_step {settings : Settings} {ctx : RoundContext} {amb : Ambient}
    {race next : Race} {event : Race.Event} {acts : List Act}
    (hStep : race.step settings ctx amb event = some (next, acts)) : PastGate acts := by
  intro act hMem
  have hAct := Race.probeActs_step hStep act hMem
  cases act with
  | noted notice =>
      have hLine : notice ∈ notices acts := List.mem_filterMap.mpr ⟨_, hMem, rfl⟩
      have hTells := @Race.tells_step _ _ _ _ _ _ ⟨race.pool.told, []⟩ _ rfl hStep
      rcases hTells.others notice hLine with hReport | ⟨address, rfl⟩
      · cases notice <;> first | rfl | cases hReport
      · rfl
  | checkedConnectivity | refreshedResolvers | readList => cases hAct
  | _ => rfl

theorem pastGate_setUp (scene : Scene) : PastGate (Round.setUpNotices scene) := by
  intro act hMem
  rcases Round.of_mem_setUpNotices hMem with rfl | rfl | ⟨_, _, rfl⟩ <;> rfl

/-- What a round does when it sends its probes out. -/
theorem Round.pastGate_dispatch (c : Coordinator) (request : SelectionRequest) (amb : Ambient)
    (round : Round) (scene : Scene) :
    ∃ more, (dispatch c request amb round scene).2.2 = .refreshedResolvers :: .readList :: more ∧
      PastGate more := by
  obtain ⟨setUp, last, hActs, hSetUp, hLast⟩ := acts_dispatch c request amb round scene
  have hPast : PastGate setUp := fun act hMem => pastGate_setUp scene act (hSetUp act hMem)
  exact ⟨setUp ++ last, hActs, hPast.append (pastGate_of_conclusion hLast)⟩

theorem Round.not_searches_dispatch (c : Coordinator) (request : SelectionRequest)
    (amb : Ambient) (round : Round) (scene : Scene) :
    ¬ (dispatch c request amb round scene).2.1.Searches := by
  unfold dispatch
  generalize probeOrder c.generator c.settings.poolSize c.list.entries = order
  obtain ⟨ordered, generator⟩ := order
  cases scene.regionCrashes with
  | true => rintro (hPhase | ⟨sleep, hPhase⟩) <;> cases hPhase
  | false =>
      simp only [Bool.false_eq_true, if_false]
      split <;> rintro (hPhase | ⟨sleep, hPhase⟩) <;> cases hPhase

/-! ## Looks -/

/-- What a round finds when it asks whether there is a network, look by look. -/
def scenes (schedule : List (Ambient × RoundEvent)) : List Scene :=
  schedule.filterMap fun
    | (_, .look scene) => some scene
    | _ => none

/-- Whether the first look finds no network. -/
def firstOffline (schedule : List (Ambient × RoundEvent)) : Bool :=
  (scenes schedule).head?.any fun scene => !scene.online

section Looks

variable {schedule : List (Ambient × RoundEvent)} {amb : Ambient} {scene : Scene}

theorem scenes_append (schedule more : List (Ambient × RoundEvent)) :
    scenes (schedule ++ more) = scenes schedule ++ scenes more :=
  List.filterMap_append

theorem scenes_look : scenes (schedule ++ [(amb, .look scene)]) = scenes schedule ++ [scene] :=
  scenes_append _ _

theorem scenes_wake : scenes (schedule ++ [(amb, .wake)]) = scenes schedule := by
  rw [scenes_append]
  exact List.append_nil _

/-- Only the first look decides. -/
theorem firstOffline_append (hSome : scenes schedule ≠ [])
    (more : List (Ambient × RoundEvent)) :
    firstOffline (schedule ++ more) = firstOffline schedule := by
  rw [firstOffline, firstOffline, scenes_append, List.head?_append_of_ne_nil _ hSome]

/-- What a round that has not found a network has done: it asked at every look, and
told that it waits if the first one found no network. -/
structure Watched (schedule : List (Ambient × RoundEvent)) (acts : List Act) : Prop where
  only : ∀ act ∈ acts, act = .checkedConnectivity ∨ act = .noted .awaitingConnectivity
  checked : acts.count .checkedConnectivity = (scenes schedule).length
  noticed : acts.count (.noted .awaitingConnectivity) = (firstOffline schedule).toNat

/-- Neither the resolvers nor the list are touched before there is a network. -/
theorem Watched.untouched {acts : List Act} (hWatched : Watched schedule acts) :
    acts.count .refreshedResolvers = 0 ∧ acts.count .readList = 0 := by
  refine ⟨List.count_eq_zero.mpr fun hMem => ?_, List.count_eq_zero.mpr fun hMem => ?_⟩ <;>
    rcases hWatched.only _ hMem with hIs | hIs <;> cases hIs

theorem Watched.wake {acts : List Act} (hWatched : Watched schedule acts) :
    Watched (schedule ++ [(amb, .wake)]) acts where
  only := hWatched.only
  checked := by
    rw [scenes_wake]
    exact hWatched.checked
  noticed := by
    rw [firstOffline, scenes_wake]
    exact hWatched.noticed

/-- A look that finds a network, at a round that told of its waiting if it had to. -/
theorem Watched.online {acts : List Act} (hWatched : Watched schedule acts)
    (hOnline : scene.online = true) :
    Watched (schedule ++ [(amb, .look scene)]) (acts ++ [.checkedConnectivity]) where
  only act hMem := by
    rcases List.mem_append.mp hMem with hIn | hLast
    · exact hWatched.only act hIn
    · exact .inl (List.mem_singleton.mp hLast)
  checked := by
    rw [List.count_append, hWatched.checked, scenes_look, List.length_append]
    rfl
  noticed := by
    have hSame : firstOffline (schedule ++ [(amb, .look scene)]) = firstOffline schedule := by
      by_cases hNone : scenes schedule = []
      · rw [firstOffline, firstOffline, scenes_look, hNone]
        simp [hOnline]
      · exact firstOffline_append hNone _
    rw [List.count_append, hWatched.noticed, hSame]
    rfl

/-- A look that finds none. -/
theorem Watched.offline {acts : List Act} {round : Round} (hWatched : Watched schedule acts)
    (hTold : round.awaitsTold = firstOffline schedule)
    (hOffline : ∀ other ∈ scenes schedule, other.online = false)
    (hNow : scene.online = false) :
    Watched (schedule ++ [(amb, .look scene)])
        (acts ++ .checkedConnectivity :: round.awaitsNotice) ∧
      firstOffline (schedule ++ [(amb, .look scene)]) = true := by
  have hFirst : firstOffline (schedule ++ [(amb, .look scene)]) = true ∧
      (firstOffline schedule).toNat + (round.awaitsNotice.count (.noted .awaitingConnectivity)) =
        1 := by
    unfold Round.awaitsNotice
    rw [hTold]
    cases hScenes : scenes schedule with
    | nil => simp [firstOffline, scenes_look, hScenes, hNow]
    | cons first rest =>
        have hHead : first.online = false := hOffline first (by simp [hScenes])
        simp [firstOffline, scenes_look, hScenes, hHead]
  have hNotice : ∀ act ∈ round.awaitsNotice, act = .noted .awaitingConnectivity := by
    unfold Round.awaitsNotice
    split <;> simp
  refine ⟨⟨fun act hMem => ?_, ?_, ?_⟩, hFirst.1⟩
  · rcases List.mem_append.mp hMem with hIn | hLast
    · exact hWatched.only act hIn
    · rcases List.mem_cons.mp hLast with rfl | hTail
      · exact .inl rfl
      · exact .inr (hNotice act hTail)
  · have hNoCheck : round.awaitsNotice.count .checkedConnectivity = 0 :=
      List.count_eq_zero.mpr fun hMem => by cases hNotice _ hMem
    rw [List.count_append, hWatched.checked, List.count_cons_self, hNoCheck, scenes_look,
      List.length_append]
    rfl
  · rw [List.count_append, hWatched.noticed, List.count_cons_of_ne (by simp), hFirst.1]
    exact hFirst.2

end Looks

/-! ## What a round has come to -/

namespace RoundTrace

/-- A round that waits for a network. -/
structure Waits (start : Coordinator) (schedule : List (Ambient × RoundEvent))
    (t : RoundTrace) : Prop where
  searches : t.round.Searches
  /-- Nothing has changed: no number is drawn, and the stored list is as it was. -/
  coordinator : t.coordinator = start
  clear : ∀ event ∈ schedule, event.1.abort = false
  offline : ∀ scene ∈ scenes schedule, scene.online = false
  told : t.round.awaitsTold = firstOffline schedule
  watched : Watched schedule t.acts

/-- A round that was called off before it found a network. -/
structure Fails (start : Coordinator) (schedule : List (Ambient × RoundEvent))
    (t : RoundTrace) : Prop where
  phase : t.round.phase = .ended none
  /-- Nothing has changed but that one failed, aborted round is recorded. -/
  coordinator : t.coordinator =
    { start with statistics := start.statistics.record { aborted := true } }
  outcomes : t.outcomes = []
  watched : Watched schedule t.acts

/-- A round that has found a network, and what it had come to before that. -/
structure Passes (before t : RoundTrace) : Prop where
  /-- It brings the resolvers in line and reads the list, in this order and once. -/
  acts : ∃ more, t.acts =
      before.acts ++ .checkedConnectivity :: .refreshedResolvers :: .readList :: more ∧
    PastGate more
  /-- It does not wait any more. -/
  past : ¬ t.round.Searches

/-- What a round has come to, as far as the network is concerned. -/
inductive Gate (request : SelectionRequest) (start : Coordinator)
    (schedule : List (Ambient × RoundEvent)) (t : RoundTrace) : Prop where
  | waits (hWaits : Waits start schedule t) : Gate request start schedule t
  /-- The last event was the first to find the signal raised. -/
  | fails {before : List (Ambient × RoundEvent)} {amb : Ambient} {event : RoundEvent}
      {u : RoundTrace} (hSchedule : schedule = before ++ [(amb, event)])
      (hPlay : (RoundTrace.start start).play request before = some u)
      (hBefore : Waits start before u) (hRaised : amb.abort = true)
      (hFails : Fails start schedule t) : Gate request start schedule t
  /-- A look found a network while the signal read clear. -/
  | passes {before rest : List (Ambient × RoundEvent)} {amb : Ambient} {scene : Scene}
      {u : RoundTrace} (hSchedule : schedule = before ++ (amb, .look scene) :: rest)
      (hPlay : (RoundTrace.start start).play request before = some u)
      (hBefore : Waits start before u) (hOnline : scene.online = true)
      (hClear : amb.abort = false) (hPasses : Passes u t) : Gate request start schedule t

section Gate

variable {request : SelectionRequest} {start : Coordinator} {t u after : RoundTrace}
  {before schedule : List (Ambient × RoundEvent)} {amb : Ambient} {event : RoundEvent}

theorem clear_append (hBefore : Waits start before u) (hClear : amb.abort = false) :
    ∀ other ∈ before ++ [(amb, event)], other.1.abort = false := by
  intro other hMem
  rcases List.mem_append.mp hMem with hIn | hLast
  · exact hBefore.clear other hIn
  · rw [List.mem_singleton.mp hLast]
    exact hClear

/-- A look at the signal in a sleep calls the round off or lets it wait on. -/
theorem gate_afterLook {round : Round} {look : Sleep.Look} {acts : List Act}
    (hPlay : (RoundTrace.start start).play request before = some u)
    (hBefore : Waits start before u) (hLook : look = .aborted ↔ amb.abort = true)
    (hTold : round.awaitsTold = firstOffline (before ++ [(amb, event)]))
    (hOffline : ∀ scene ∈ scenes (before ++ [(amb, event)]), scene.online = false)
    (hWatched : Watched (before ++ [(amb, event)]) acts) :
    Gate request start (before ++ [(amb, event)])
      { coordinator := (Round.afterLook start round amb look).1
        round := (Round.afterLook start round amb look).2
        acts
        outcomes := []
        aborted := amb.abort } := by
  cases hAbort : amb.abort with
  | true =>
      rw [hLook.mpr hAbort]
      refine .fails rfl hPlay hBefore hAbort ⟨rfl, ?_, rfl, hWatched⟩
      simp [Round.afterLook, Round.giveUp, Round.finish, hAbort]
  | false =>
      have hClear : ∀ other ∈ before ++ [(amb, event)], other.1.abort = false :=
        clear_append hBefore hAbort
      cases look with
      | aborted => cases hAbort.symm.trans (hLook.mp rfl)
      | rested => exact .waits ⟨.inl rfl, rfl, hClear, hOffline, hTold, hWatched⟩
      | asleep sleep => exact .waits ⟨.inr ⟨sleep, rfl⟩, rfl, hClear, hOffline, hTold, hWatched⟩

theorem Waits.step (hPlay : (RoundTrace.start start).play request before = some u)
    (hBefore : Waits start before u) (hStep : u.step request (amb, event) = some after) :
    Gate request start (before ++ [(amb, event)]) after := by
  obtain ⟨coordinator, round, acts, hRound, rfl⟩ := step_eq_some hStep
  rw [hBefore.coordinator] at hRound
  rcases hBefore.searches with hAsking | ⟨sleep, hSleeping⟩
  · cases event with
    | look scene =>
        simp only [Round.step, hAsking, Option.some.injEq] at hRound
        cases hOnline : scene.online with
        | true =>
            have hWatched : Watched (before ++ [(amb, .look scene)]) _ :=
              hBefore.watched.online hOnline
            cases hAbort : amb.abort with
            | true =>
                simp only [Round.look, hOnline, hAbort, if_true] at hRound
                cases hRound
                refine .fails rfl hPlay hBefore hAbort ⟨rfl, ?_, rfl, hWatched⟩
                simp [Round.giveUp, Round.finish, hAbort]
            | false =>
                simp only [Round.look, hOnline, hAbort, if_true, Bool.false_eq_true,
                  if_false] at hRound
                obtain ⟨more, hActs, hMore⟩ :=
                  Round.pastGate_dispatch start request amb u.round scene
                have hPast := Round.not_searches_dispatch start request amb u.round scene
                rw [hActs] at hRound
                cases hRound
                exact .passes rfl hPlay hBefore hOnline hAbort ⟨⟨more, rfl, hMore⟩, hPast⟩
        | false =>
            have hLooked : Watched (before ++ [(amb, .look scene)]) _ ∧ _ :=
              hBefore.watched.offline hBefore.told hBefore.offline hOnline
            obtain ⟨hWatched, hFirst⟩ := hLooked
            simp only [Round.look, hOnline, Bool.false_eq_true, if_false] at hRound
            cases hRound
            refine gate_afterLook hPlay hBefore Round.look_eq_aborted hFirst.symm ?_ hWatched
            intro other hMem
            rw [scenes_look] at hMem
            rcases List.mem_append.mp hMem with hIn | hLast
            · exact hBefore.offline other hIn
            · rw [List.mem_singleton.mp hLast]
              exact hOnline
    | wake | race => simp [Round.step, hAsking] at hRound
  · cases event with
    | wake =>
        simp only [Round.step, hSleeping] at hRound
        split at hRound
        · cases hRound
          rw [List.append_nil]
          refine gate_afterLook hPlay hBefore Round.look_eq_aborted ?_ ?_ hBefore.watched.wake
          · rw [firstOffline, scenes_wake]
            exact hBefore.told
          · rw [scenes_wake]
            exact hBefore.offline
        · cases hRound
    | look | race => simp [Round.step, hSleeping] at hRound

theorem Passes.step (hPasses : Passes u t) (hStep : t.step request (amb, event) = some after) :
    Passes u after := by
  obtain ⟨more, hActs, hMore⟩ := hPasses.acts
  obtain ⟨coordinator, round, acts, hRound, rfl⟩ := step_eq_some hStep
  cases hPhase : t.round.phase with
  | asking => exact absurd (.inl hPhase) hPasses.past
  | sleeping sleep => exact absurd (.inr ⟨sleep, hPhase⟩) hPasses.past
  | racing ctx race =>
      obtain ⟨_, _, raceActs, last, hRaces⟩ := Round.races_of_step hPhase hRound
      refine ⟨⟨more ++ acts, ?_, hMore.append ?_⟩, fun hSearches => ?_⟩
      · simp only [hActs, List.append_assoc, List.cons_append]
      · rw [hRaces.acts]
        exact (Race.pastGate_step hRaces.step).append (pastGate_of_conclusion hRaces.more)
      · exact hPasses.past (Round.searches_before hRound hSearches)
  | ended winner =>
      rw [step_ended hPhase] at hStep
      cases hStep
  | crashed =>
      rw [step_crashed hPhase] at hStep
      cases hStep

theorem Gate.step (hPlay : (RoundTrace.start start).play request schedule = some t)
    (hGate : Gate request start schedule t) (hStep : t.step request (amb, event) = some after) :
    Gate request start (schedule ++ [(amb, event)]) after := by
  cases hGate with
  | waits hWaits => exact hWaits.step hPlay hStep
  | fails _ _ _ _ hFails =>
      rw [step_ended hFails.phase] at hStep
      cases hStep
  | passes hSchedule hEarly hBefore hOnline hClear hPasses =>
      have hLonger := congrArg (· ++ [(amb, event)]) hSchedule
      simp only [List.append_assoc, List.cons_append] at hLonger
      exact .passes hLonger hEarly hBefore hOnline hClear (hPasses.step hStep)

end Gate

/-! ## What it tells and how often -/

section Counts

variable {request : SelectionRequest} {start : Coordinator} {t u : RoundTrace}
  {before rest schedule : List (Ambient × RoundEvent)} {amb : Ambient} {event : RoundEvent}
  {scene : Scene}

end Counts

end RoundTrace

end RelayRace
