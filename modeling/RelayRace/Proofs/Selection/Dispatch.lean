import RelayRace.Proofs.Selection.Accounting
import RelayRace.Proofs.Selection.Handover
import RelayRace.Proofs.Selection.RoundStep

/-!
# Whom a round sends its probes to

The filter of a round asks four questions about a candidate, and none of them
about anything else (`Filter.Eligible`).  Going through the stored list in
whatever order neither loses nor repeats an entry, so the jobs of a round are
the eligible entries of its snapshot, as often as each stands in it, numbered
from zero (`Dispatches`).  Only a list that is longer than the pool is wide is
shuffled, and then the entry that stood first stays where it is.

Which look at the environment sends the probes out can be read off the schedule
of a round.  Whoever wins was made of one of its jobs.  What a probe writes back
is none of what the filter asks about, so a winner is still as eligible as its
entry was.
-/

namespace RelayRace

/-! ## Eligible candidates -/

namespace Candidate

variable {candidate original : Candidate}

/-- No question of a filter is about what a probe writes back. -/
theorem RewriteOf.admits_eq (hRewrite : candidate.RewriteOf original) (filter : Filter) :
    filter.admits candidate = filter.admits original := by
  have hSupports : candidate.supports = original.supports := by
    rw [hRewrite]
    rfl
  have hPort : candidate.testPort? = original.testPort? := by
    rw [hRewrite]
    rfl
  have hAny : candidate.hasAny = original.hasAny := by
    rw [hRewrite]
    rfl
  have hRegion : candidate.inRegion = original.inRegion := by
    rw [hRewrite]
    rfl
  simp only [Filter.admits, TargetSequence.choose, hSupports, hPort, hAny, hRegion]

end Candidate

namespace Filter

/-- What makes a candidate eligible, question by question. -/
structure Eligible (filter : Filter) (candidate : Candidate) : Prop where
  /-- There is a port to test it on. -/
  port : ∃ port, candidate.testPort? = some port
  /-- It has one of the sufficient capabilities. -/
  capability : ∃ capability ∈ filter.sufficient, capability ∈ candidate.capabilities
  /-- It lies in the region, if the round is confined to one. -/
  region : ∀ region, filter.region = some region → region = "" ∨ candidate.region = region
  /-- One of the targets reaches it. -/
  target : ∃ protocol ∈ filter.targets, candidate.supports protocol = true

variable {filter : Filter} {candidate : Candidate}

theorem inRegion_iff {region? : Option String} :
    candidate.inRegion region? = true ↔
      ∀ region, region? = some region → region = "" ∨ candidate.region = region := by
  cases region? with
  | none => simp [Candidate.inRegion]
  | some region => simp [Candidate.inRegion]

theorem admits_iff : filter.admits candidate = true ↔ filter.Eligible candidate := by
  have hPort : candidate.testPort?.isSome = true ↔ ∃ port, candidate.testPort? = some port :=
    Option.isSome_iff_exists
  have hCapability : candidate.hasAny filter.sufficient = true ↔
      ∃ capability ∈ filter.sufficient, capability ∈ candidate.capabilities := by
    simp [Candidate.hasAny, Candidate.has]
  have hTarget : (TargetSequence.choose filter.targets candidate).isSome = true ↔
      ∃ protocol ∈ filter.targets, candidate.supports protocol = true :=
    List.find?_isSome
  rw [admits, Bool.and_eq_true, Bool.and_eq_true, Bool.and_eq_true, hPort, hCapability,
    inRegion_iff, hTarget]
  constructor
  · rintro ⟨⟨⟨hPort, hCapability⟩, hRegion⟩, hTarget⟩
    exact ⟨hPort, hCapability, hRegion, hTarget⟩
  · rintro ⟨hPort, hCapability, hRegion, hTarget⟩
    exact ⟨⟨⟨hPort, hCapability⟩, hRegion⟩, hTarget⟩

end Filter

/-! ## The jobs of a snapshot -/

section Snapshot

variable (filter : Filter) (g : Generator) (poolSize : Nat) (snapshot : List Candidate)

/-- What the jobs are that a round makes of a snapshot of the stored list. -/
structure Dispatches (jobs : List Job) : Prop where
  /-- They are made of the eligible entries, of each as often as it stands there. -/
  exactly : (jobs.map Job.candidate).Perm (snapshot.filter filter.admits)
  /-- They are numbered from zero in their order. -/
  numbered : jobs.map Job.index = List.range jobs.length
  /-- A short list is gone through as it stands, and nothing is drawn for it. -/
  unshuffled : snapshot.length ≤ poolSize →
    jobs.map Job.candidate = snapshot.filter filter.admits ∧
      (probeOrder g poolSize snapshot).2 = g
  /-- A long list is gone through in another order, from its first entry on. -/
  shuffled : poolSize < snapshot.length →
    ∃ order : List Candidate, order.Perm snapshot ∧ order.head? = snapshot.head? ∧
      jobs.map Job.candidate = order.filter filter.admits
  /-- The entry that stands first is dispatched first if it is eligible. -/
  first : ∀ entry, snapshot.head? = some entry → filter.admits entry = true →
    jobs.head? = some ⟨0, entry⟩
  /-- Whether an entry is dispatched does not depend on the others or their order. -/
  alone : ∀ entry ∈ snapshot, (∃ job ∈ jobs, job.candidate = entry) ↔ filter.Eligible entry

theorem head?_probeOrder : (probeOrder g poolSize snapshot).1.head? = snapshot.head? := by
  unfold probeOrder
  split
  · cases snapshot with
    | nil => rfl
    | cons first rest => rfl
  · rfl

/-- An eligible entry that is gone through first is the first job. -/
theorem head?_jobs {ordered : List Candidate} {entry : Candidate}
    (hHead : ordered.head? = some entry) (hAdmits : filter.admits entry = true) :
    (jobs filter ordered).head? = some ⟨0, entry⟩ := by
  cases ordered with
  | nil => cases hHead
  | cons first rest =>
      cases hHead
      rw [jobs, List.filter_cons_of_pos hAdmits]
      rfl

theorem dispatches_jobs :
    Dispatches filter g poolSize snapshot
      (jobs filter (probeOrder g poolSize snapshot).1) := by
  have hCandidates : (jobs filter (probeOrder g poolSize snapshot).1).map Job.candidate =
      (probeOrder g poolSize snapshot).1.filter filter.admits := map_candidate_numberFrom _ _
  have hPerm := perm_probeOrder g poolSize snapshot
  have hExactly : ((jobs filter (probeOrder g poolSize snapshot).1).map Job.candidate).Perm
      (snapshot.filter filter.admits) := by
    rw [hCandidates]
    exact hPerm.filter filter.admits
  exact
    { exactly := hExactly
      numbered := by
        have hLength := congrArg List.length hCandidates
        rw [List.length_map] at hLength
        rw [hLength, jobs, map_index_numberFrom, List.range_eq_range']
      unshuffled := by
        intro hShort
        have hOrder : probeOrder g poolSize snapshot = (snapshot, g) :=
          if_neg (Nat.not_lt.mpr hShort)
        rw [hCandidates, hOrder]
        exact ⟨rfl, rfl⟩
      shuffled := fun _ => ⟨_, hPerm, head?_probeOrder g poolSize snapshot, hCandidates⟩
      first := by
        intro entry hHead hAdmits
        rw [← head?_probeOrder g poolSize snapshot] at hHead
        exact head?_jobs filter hHead hAdmits
      alone := by
        intro entry hEntry
        rw [← Filter.admits_iff, ← List.mem_map, hExactly.mem_iff, List.mem_filter]
        exact ⟨And.right, fun hAdmits => ⟨hEntry, hAdmits⟩⟩ }

end Snapshot

/-! ## The look that sends the probes out -/

/-- Whether a look at this scene sends the probes out. -/
structure Scene.SendsOut (scene : Scene) (amb : Ambient) : Prop where
  online : scene.online = true
  kept : amb.abort = false
  region : scene.regionCrashes = false

namespace Round

variable {c : Coordinator} {request : SelectionRequest} {amb : Ambient} {round : Round}
  {scene : Scene}

theorem look_of_sendsOut (hSends : scene.SendsOut amb) :
    look c request amb round scene =
      ((dispatch c request amb round scene).1, (dispatch c request amb round scene).2.1,
        .checkedConnectivity :: (dispatch c request amb round scene).2.2) := by
  simp only [look, hSends.online, hSends.kept, if_true, Bool.false_eq_true, if_false]

/-- A round that is not racing and has no winner. -/
def IsBare (round : Round) : Prop :=
  round.Searches ∨ round.phase = .ended none ∨ round.phase = .crashed

theorem isBare_afterLook (c : Coordinator) (round : Round) (amb : Ambient) (look : Sleep.Look) :
    (afterLook c round amb look).2.IsBare := by
  cases look with
  | aborted => exact .inr (.inl rfl)
  | rested => exact .inl (.inl rfl)
  | asleep sleep => exact .inl (.inr ⟨sleep, rfl⟩)

/-- Any other look leaves the round searching, ends it without a winner or crashes. -/
theorem isBare_look (hKeeps : ¬ scene.SendsOut amb) :
    (look c request amb round scene).2.1.IsBare := by
  by_cases hOnline : scene.online = true
  · by_cases hAbort : amb.abort = true
    · simp only [look, hOnline, hAbort, if_true]
      exact .inr (.inl rfl)
    · have hRegion : scene.regionCrashes = true := by
        by_contra hRegion
        exact hKeeps ⟨hOnline, by simpa using hAbort, by simpa using hRegion⟩
      simp only [look, hOnline, hAbort, if_true, Bool.false_eq_true, if_false, dispatch, hRegion]
      exact .inr (.inr rfl)
  · simp only [look, hOnline]
    exact isBare_afterLook _ _ _ _

/-- Nothing but a look that sends the probes out takes a round from its search to a
race or a winner. -/
theorem isBare_or_sendsOut {event : RoundEvent} {next : Coordinator} {later : Round}
    {acts : List Act} (hSearches : round.Searches)
    (hStep : round.step c request amb event = some (next, later, acts)) :
    later.IsBare ∨ ∃ scene, event = .look scene ∧ scene.SendsOut amb := by
  rcases hSearches with hAsking | ⟨sleep, hSleeping⟩
  · cases event with
    | look scene =>
        by_cases hSends : scene.SendsOut amb
        · exact .inr ⟨scene, rfl, hSends⟩
        · have hBare : (look c request amb round scene).2.1.IsBare := isBare_look hSends
          simp only [step, hAsking, Option.some.injEq] at hStep
          rw [hStep] at hBare
          exact .inl hBare
    | wake | race _ => simp [step, hAsking] at hStep
  · cases event with
    | wake =>
        simp only [step, hSleeping] at hStep
        split at hStep
        · cases hStep
          exact .inl (isBare_afterLook _ _ _ _)
        · cases hStep
    | look _ | race _ => simp [step, hSleeping] at hStep

end Round

/-- Nobody wins without an outcome. -/
theorem Conclusion.winner_nil (list : ServerList) (g : Generator) (first : Option Candidate)
    (abort : Bool) : (Conclusion.of list g first abort []).winner = none := by
  cases hWinner : (Conclusion.of list g first abort []).winner with
  | none => rfl
  | some w =>
      obtain ⟨o, hMem, -⟩ := Conclusion.winner_of (fun _ hMem => by cases hMem) hWinner
      cases hMem

namespace RoundTrace

variable {request : SelectionRequest} {start : Coordinator} {t after : RoundTrace} {scene : Scene}
  {amb : Ambient}

/-- What a round has come to that has just sent its probes out. -/
structure Sent (request : SelectionRequest) (start : Coordinator) (amb : Ambient) (scene : Scene)
    (t : RoundTrace) : Prop where
  /-- If there is anybody to probe, the pool is given exactly the jobs of the round,
  and nothing was drawn but for their order. -/
  races : start.jobsIn scene ≠ [] →
    t.coordinator = start.probing ∧
      t.round.phase = .racing (Round.contextOf start request scene)
        (Race.start start.settings amb.now (start.jobsIn scene))
  /-- If there is nobody, the round is over. -/
  deserted : start.jobsIn scene = [] → t.round.phase = .ended none

/-- A look that sends the probes out does so. -/
theorem Searches.launched (hSearches : Searches start t) (hSends : scene.SendsOut amb)
    (hStep : t.step request (amb, .look scene) = some after) :
    Launched request start amb scene after := by
  obtain ⟨coordinator, round, acts, hRound, rfl⟩ := step_eq_some hStep
  obtain ⟨hPhase, rfl, hIdle, -⟩ := hSearches
  rcases hPhase with hAsking | ⟨sleep, hSleeping⟩
  · simp only [Round.step, hAsking, Round.look_of_sendsOut hSends, Option.some.injEq] at hRound
    cases hRound
    exact launched_dispatch hIdle hSends.region
  · simp [Round.step, hSleeping] at hRound

theorem Launched.sent (hLaunched : Launched request start amb scene t) :
    Sent request start amb scene t := by
  cases hLaunched with
  | races hJobs hRaces =>
      exact ⟨fun _ => ⟨hRaces.coordinator, hRaces.phase⟩, fun hNone => absurd hNone hJobs⟩
  | deserted hNone hConcluded =>
      refine ⟨fun hJobs => absurd hNone hJobs, fun _ => ?_⟩
      rw [hConcluded.phase, hConcluded.outcomes]
      exact congrArg RoundPhase.ended (Conclusion.winner_nil _ _ _ _)

theorem Launched.collects (hLaunched : Launched request start amb scene t) :
    Collects request start scene 0 t := by
  cases hLaunched with
  | races _ hRaces => exact ⟨_, Nat.zero_le _, .inl ⟨_, hRaces⟩⟩
  | deserted _ hConcluded => exact ⟨_, Nat.zero_le _, .inr (.inl hConcluded)⟩

/-- Whatever happens to a round that searches: it goes on searching, it is over
without a winner, or it has sent its probes out. -/
theorem Searches.step_or_launched {event : Ambient × RoundEvent} (hSearches : Searches start t)
    (hStep : t.step request event = some after) :
    Searches start after ∨ after.round.phase = .ended none ∨ after.round.phase = .crashed ∨
      ∃ amb scene, event = (amb, .look scene) ∧ scene.SendsOut amb ∧
        Launched request start amb scene after := by
  obtain ⟨amb, event⟩ := event
  obtain ⟨_, _, _, hRound, hAfter⟩ := step_eq_some hStep
  rcases Round.isBare_or_sendsOut hSearches.phase hRound with hBare | ⟨scene, rfl, hSends⟩
  · have hPhase : after.round.IsBare := by
      rw [hAfter]
      exact hBare
    rcases hPhase with hLater | hOver
    · left
      cases hSearches.step hStep with
      | searches hStill => exact hStill
      | gaveUp hOther | crashed hOther | collapsed hOther | races hOther | concluded hOther =>
          rcases hLater with hPhase | ⟨sleep, hPhase⟩ <;> cases hPhase.symm.trans hOther.phase
    · exact .inr (hOver.imp_right .inl)
  · exact .inr (.inr (.inr ⟨amb, scene, rfl, hSends, hSearches.launched hSends hStep⟩))

/-- A round that has a winner once sent its probes out. -/
theorem exists_sendsOut {w : Winner} (schedule : List (Ambient × RoundEvent)) :
    ∀ {t u : RoundTrace}, Searches start t → t.play request schedule = some u →
      u.round.phase = .ended (some w) →
      ∃ early amb scene rest, schedule = early ++ (amb, .look scene) :: rest ∧
        scene.SendsOut amb ∧ Collects request start scene 0 u := by
  induction schedule with
  | nil =>
      intro t u hSearches hPlay hEnded
      cases hPlay
      rcases hSearches.phase with hPhase | ⟨sleep, hPhase⟩ <;> cases hPhase.symm.trans hEnded
  | cons event rest ih =>
      intro t u hSearches hPlay hEnded
      rw [play, playSchedule_cons, Option.bind_eq_some_iff] at hPlay
      obtain ⟨next, hStep, hRest⟩ := hPlay
      rcases hSearches.step_or_launched hStep with
        hNext | hNone | hCrashed | ⟨amb, scene, rfl, hSends, hLaunched⟩
      · obtain ⟨early, amb, scene, later, rfl, hFound⟩ := ih hNext hRest hEnded
        exact ⟨event :: early, amb, scene, later, rfl, hFound⟩
      · -- A round that is over takes no further event, so this is where it stands.
        have hStill : u.round.phase = .ended none := by
          refine playSchedule_keeps (P := fun u => u.round.phase = .ended none) rest ?_ hNone hRest
          intro event _ before after hBefore hAfter
          cases (step_ended hBefore event).symm.trans hAfter
        cases hStill.symm.trans hEnded
      · have hStill : u.round.phase = .crashed := by
          refine playSchedule_keeps (P := fun u => u.round.phase = .crashed) rest ?_ hCrashed hRest
          intro event _ before after hBefore hAfter
          cases (step_crashed hBefore event).symm.trans hAfter
        cases hStill.symm.trans hEnded
      · refine ⟨[], amb, scene, rest, rfl, hSends, ?_⟩
        exact playSchedule_keeps rest (fun _ _ _ _ hBefore hStep => hBefore.step hStep)
          hLaunched.collects hRest

/-! ## Winners -/

/-- What holds of the winner of a round that found this scene. -/
structure EligibleWinner (start : Coordinator) (scene : Scene) (w : Winner) : Prop where
  /-- It was made of an entry of the snapshot, under the index of its job. -/
  entry : ∃ entry ∈ start.list.entries, w.candidate.RewriteOf entry ∧
    ⟨w.index, entry⟩ ∈ start.jobsIn scene
  /-- It lies in the region that was asked for, has a sufficient capability and a
  port to test it on, and one of the targets reaches it. -/
  eligible : (Round.filterOf start scene).Eligible w.candidate

/-- A job of a round is made of an eligible entry. -/
theorem admits_of_jobsIn {job : Job} (hJob : job ∈ start.jobsIn scene) :
    (Round.filterOf start scene).admits job.candidate = true := by
  have hCandidate : job.candidate ∈ (start.jobsIn scene).map Job.candidate :=
    List.mem_map_of_mem hJob
  rw [start.map_candidate_jobsIn] at hCandidate
  exact (List.mem_filter.mp hCandidate).2

theorem Collects.eligibleWinner {w : Winner} (hCollects : Collects request start scene 0 t)
    (hEnded : t.round.phase = .ended (some w)) : EligibleWinner start scene w := by
  obtain ⟨l, -, ⟨race, hRaces⟩ | hConcluded | hCollapsed⟩ := hCollects
  · cases hRaces.phase.symm.trans hEnded
  · have hWinner : (start.conclusion t.aborted t.outcomes).winner = some w :=
      RoundPhase.ended.inj (hConcluded.phase.symm.trans hEnded)
    obtain ⟨o, hMem, -, hGives⟩ := Conclusion.winner_of hConcluded.gives hWinner
    rw [hConcluded.outcomes] at hMem
    obtain ⟨job, hJob, hSound⟩ := hConcluded.raced.sound o hMem
    have hRewrite : w.candidate.RewriteOf job.candidate := by
      rw [hGives.candidate]
      exact hSound.candidate
    have hIndex : w.index = job.index := hGives.index.trans hSound.index
    refine ⟨⟨job.candidate, mem_entries_of_jobsIn hJob, hRewrite, ?_⟩, ?_⟩
    · rw [hIndex]
      exact hJob
    · rw [← Filter.admits_iff, hRewrite.admits_eq]
      exact admits_of_jobsIn hJob
  · cases hCollapsed.phase.symm.trans hEnded

/-- For every snapshot of the list, width of the pool, state of the generator and
filter, the jobs are exactly the eligible entries, in an order that is left as it
stands or drawn behind the first entry.  Whenever a round finds a network and is
not called off, these are the jobs that its pool is given; and whoever wins a
round was one of them and is still eligible. -/
theorem dispatched_exactly_eligible :
    (∀ (filter : Filter) (g : Generator) (poolSize : Nat) (snapshot : List Candidate),
        Dispatches filter g poolSize snapshot
          (jobs filter (probeOrder g poolSize snapshot).1)) ∧
      (∀ (request : SelectionRequest) (start : Coordinator)
          (early : List (Ambient × RoundEvent)) (amb : Ambient) (scene : Scene) (t : RoundTrace),
          (RoundTrace.start start).play request (early ++ [(amb, .look scene)]) = some t →
          scene.SendsOut amb →
          Sent request start amb scene t ∧
            Dispatches (Round.filterOf start scene) start.generator start.settings.poolSize
              start.list.entries (start.jobsIn scene)) ∧
      ∀ (request : SelectionRequest) (start : Coordinator)
        (schedule : List (Ambient × RoundEvent)) (t : RoundTrace) (w : Winner),
        (RoundTrace.start start).play request schedule = some t →
        t.round.phase = .ended (some w) →
        ∃ early amb scene rest, schedule = early ++ (amb, .look scene) :: rest ∧
          scene.SendsOut amb ∧ EligibleWinner start scene w := by
  refine ⟨dispatches_jobs, ?_, ?_⟩
  · intro request start early amb scene t hPlay hSends
    refine ⟨?_, dispatches_jobs _ _ _ _⟩
    rw [play, playSchedule_append, Option.bind_eq_some_iff] at hPlay
    obtain ⟨u, hEarly, hLook⟩ := hPlay
    rw [playSchedule_cons, Option.bind_eq_some_iff] at hLook
    obtain ⟨after, hStep, hEnd⟩ := hLook
    cases hEnd
    cases stands_play hEarly with
    | searches hSearches => exact (hSearches.launched hSends hStep).sent
    | gaveUp hOther | crashed hOther | collapsed hOther | races hOther | concluded hOther =>
        simp [step, Round.step, hOther.phase] at hStep
  · intro request start schedule t w hPlay hEnded
    have hSearches : Searches start (RoundTrace.start start) := ⟨.inl rfl, rfl, idle_nil, rfl⟩
    obtain ⟨early, amb, scene, rest, hSchedule, hSends, hCollects⟩ :=
      exists_sendsOut schedule hSearches hPlay hEnded
    exact ⟨early, amb, scene, rest, hSchedule, hSends, hCollects.eligibleWinner hEnded⟩

end RoundTrace

namespace Sample

/-- A coordinator whose pool is narrower than its list, in which one relay cannot be
tested and another one stands twice. -/
def crowded : Coordinator :=
  { coordinator with
    settings := { poolSize := 2 }
    list := { entries := [plain, .ofAddress "10.0.0.9", covered, plain] } }

end Sample

namespace RoundTrace

/-- Three jobs are made of a list of four and given to the pool, the one of the first
entry first; and the relay behind the sub-server, which wins a round, was eligible. -/
theorem three_of_four_dispatched :
    (Sample.crowded.jobsIn {}).length = 3 ∧
      (Sample.crowded.jobsIn {}).head? = some ⟨0, Sample.plain⟩ ∧
      (∃ t, (RoundTrace.start Sample.crowded).play {} [(Sample.moment 0, .look {})] = some t ∧
        Sent {} Sample.crowded (Sample.moment 0) {} t) ∧
      ∃ t w scene,
        (RoundTrace.start Sample.coordinator).play {}
            (Sample.schedule (Sample.probing ++ Sample.coveredResponds ++ Sample.plainCrashes ++
              (Sample.waits ++ Sample.retires))) = some t ∧
          t.round.phase = .ended (some w) ∧ EligibleWinner Sample.coordinator scene w := by
  have hSnapshot := dispatched_exactly_eligible.1 (Round.filterOf Sample.crowded {})
    Sample.crowded.generator 2 Sample.crowded.list.entries
  have hLength : (Sample.crowded.list.entries.filter
      (Round.filterOf Sample.crowded {}).admits).length = 3 := by decide
  refine ⟨?_, hSnapshot.first Sample.plain rfl (by decide), ?_, ?_⟩
  · have hCount := hSnapshot.exactly.length_eq
    rw [List.length_map, hLength] at hCount
    exact hCount
  · have hRun : ((RoundTrace.start Sample.crowded).play {}
        [(Sample.moment 0, .look {})]).isSome = true := by decide +kernel
    obtain ⟨t, hPlay⟩ := Option.isSome_iff_exists.mp hRun
    exact ⟨t, hPlay,
      (dispatched_exactly_eligible.2.1 {} Sample.crowded [] _ _ t hPlay ⟨rfl, rfl, rfl⟩).1⟩
  · have hRun : ((RoundTrace.start Sample.coordinator).play {}
        (Sample.schedule (Sample.probing ++ Sample.coveredResponds ++ Sample.plainCrashes ++
          (Sample.waits ++ Sample.retires)))).map (fun t => t.round.phase) =
        some (.ended (some ⟨1, Sample.covered.wroteBack .unfrontedMeekOssh, .unfrontedMeekOssh,
          false, .ofMillis 40, true⟩)) := by decide +kernel
    obtain ⟨t, hPlay, hEnded⟩ := Option.map_eq_some_iff.mp hRun
    obtain ⟨_, _, scene, _, -, -, hEligible⟩ :=
      dispatched_exactly_eligible.2.2 _ _ _ t _ hPlay hEnded
    exact ⟨t, _, scene, hPlay, hEnded, hEligible⟩

end RoundTrace

end RelayRace
