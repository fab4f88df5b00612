import Mathlib.Data.List.Induction
import RelayRace.Proofs.Selection.Breaches
import RelayRace.Proofs.Selection.Dispatch

/-!
# Whom a round blames for its failures

The grave line of a round is about the first failure that all of its candidates share,
and it names the proxy if that failure is of a kind in which a broken proxy shows
itself.  The kind is all that is asked: neither the line nor the flag of the round
depends on the way that the attempt went.

An attempt goes through the proxy, or over a sub-server and then past the proxy
(`Breach.ThroughProxy`, `Breach.OverSubServer`), and both can fail in these ways.  So
the blame is just, and the line is kept for the proxy, in every round in which no attempt
over a sub-server does (`Fair`), and there is a round in which the proxy is blamed
for a sub-server that did not take a connection.
-/

namespace RelayRace

/-! ## The first shared failure -/

/-- The attempt that was the first to fail in a way that all candidates share. -/
def RoundContext.firstShared (ctx : RoundContext) (breaches : List Breach) : Option Breach :=
  breaches.find? fun b => ctx.isShared b.failure

namespace RoundContext

variable {ctx : RoundContext} {breaches : List Breach} {b : Breach}

theorem firstShared_eq_none :
    ctx.firstShared breaches = none ↔ ∀ b ∈ breaches, ¬ ctx.Shares b.failure := by
  simp only [firstShared, List.find?_eq_none, ctx.isShared_iff]

theorem firstShared_append {before later : List Breach} (hShares : ctx.Shares b.failure)
    (hNone : ∀ other ∈ before, ¬ ctx.Shares other.failure) :
    ctx.firstShared (before ++ b :: later) = some b := by
  have hShared : ctx.isShared b.failure = true := (ctx.isShared_iff _).mpr hShares
  rw [firstShared, List.find?_append, ← firstShared, firstShared_eq_none.mpr hNone]
  simp [hShared]

/-- A further failure is the first shared one if there was none before it. -/
theorem firstShared_snoc {first : Breach} :
    ctx.firstShared (breaches ++ [b]) = some first ↔
      ctx.firstShared breaches = some first ∨
        first = b ∧ ctx.Shares b.failure ∧ ∀ other ∈ breaches, ¬ ctx.Shares other.failure := by
  rw [← firstShared_eq_none]
  cases hFirst : ctx.firstShared breaches with
  | some other =>
      rw [firstShared, List.find?_append, ← firstShared, hFirst]
      simp
  | none =>
      rw [firstShared, List.find?_append, ← firstShared, hFirst, ← ctx.isShared_iff]
      cases hShared : ctx.isShared b.failure <;> simp [hShared, eq_comm]

/-- A failure that is put down to the proxy is one that all candidates share. -/
theorem Blames.shares {failure : Failure} (hBlames : ctx.Blames failure) :
    ctx.Shares failure where
  notAborted hAborted := by
    rw [hAborted] at hBlames
    cases hBlames.related
  common := .inr hBlames

/-- A report names the proxy if its failure is put down to it and no shared failure was
reported before. -/
theorem Writes.proxyConnectError_mem_iff {before : List FailedProbe} {call : FailedProbe}
    {written : List Notice} (hWrites : ctx.Writes before call written) (failure : Failure) :
    .proxyConnectError failure ∈ written ↔
      call.failure = failure ∧ ctx.Blames failure ∧
        ∀ other ∈ before, ¬ ctx.Shares other.failure := by
  cases hWrites with
  | aborted hAborted =>
      refine iff_of_false (by simp) ?_
      rintro ⟨rfl, hBlames, -⟩
      exact hBlames.shares.notAborted hAborted
  | firstOfProxy hShares hBlames hFirst =>
      constructor
      · intro hMem
        cases List.mem_singleton.mp hMem
        exact ⟨rfl, hBlames, hFirst⟩
      · rintro ⟨rfl, -, -⟩
        exact List.mem_singleton.mpr rfl
  | firstOfRoute hShares hNotProxy hFirst =>
      refine iff_of_false (by simp) ?_
      rintro ⟨rfl, hBlames, -⟩
      exact hNotProxy hBlames
  | again hShares hBefore =>
      obtain ⟨other, hOther, hSome⟩ := hBefore
      refine iff_of_false (by simp) ?_
      rintro ⟨-, -, hNone⟩
      exact hNone other hOther hSome
  | own hNotAborted hOwn =>
      refine iff_of_false (by simp) ?_
      rintro ⟨rfl, hBlames, -⟩
      exact hOwn hBlames.shares

/-- A log names the proxy only for the first shared failure, and does so if that is put
down to it. -/
theorem proxyConnectError_mem_reported (breaches : List Breach) (failure : Failure) :
    .proxyConnectError failure ∈ (ctx.reported (breaches.map Breach.report)).lines ↔
      ∃ first, ctx.firstShared breaches = some first ∧ first.failure = failure ∧
        ctx.Blames failure := by
  induction breaches using List.reverseRecOn with
  | nil => simp [reported, firstShared]
  | append_singleton breaches b ih =>
      obtain ⟨written, hLines, hWrites⟩ :=
        ctx.lines_reported (breaches.map Breach.report) b.report
      rw [List.map_append, List.map_singleton, hLines, List.mem_append, ih,
        hWrites.proxyConnectError_mem_iff]
      simp only [firstShared_snoc, List.forall_mem_map, Breach.report]
      constructor
      · rintro (⟨first, hFirst, hSame, hBlames⟩ | ⟨rfl, hBlames, hNone⟩)
        · exact ⟨first, .inl hFirst, hSame, hBlames⟩
        · exact ⟨b, .inr ⟨rfl, hBlames.shares, hNone⟩, rfl, hBlames⟩
      · rintro ⟨first, hFirst | ⟨rfl, -, hNone⟩, hSame, hBlames⟩
        · exact .inl ⟨first, hFirst, hSame, hBlames⟩
        · exact .inr ⟨hSame, hBlames, hNone⟩

/-- The log of some failures and one that may follow them. -/
theorem tell_reported (breaches : List Breach) (breach : Option Breach) :
    ctx.tell (ctx.reported (breaches.map Breach.report)) breach =
      ctx.reported ((breaches ++ breach.toList).map Breach.report) := by
  cases breach with
  | none => simp [tell]
  | some b => simp [tell, reported_snoc]

/-- The flag is up once there is a first shared failure. -/
theorem told_reported_iff (breaches : List Breach) :
    (ctx.reported (breaches.map Breach.report)).told = true ↔
      ∃ first, ctx.firstShared breaches = some first := by
  rw [told_reported, ← Option.ne_none_iff_exists', Ne, firstShared_eq_none]
  simp [Breach.report]

end RoundContext

/-! ## The ways of attempts -/

namespace Breach

/-- A failed attempt that went through the proxy. -/
structure ThroughProxy (b : Breach) : Prop where
  direct : b.attempt.protocol = .ossh
  usedProxy : b.attempt.usedProxy = true

/-- A failed attempt that went over a sub-server on this host. -/
structure OverSubServer (b : Breach) : Prop where
  covered : b.attempt.protocol.usesSubServer = true
  unproxied : b.attempt.usedProxy = false

/-- Whoever fails as with a broken proxy, while there is one, has gone one of the two
ways. -/
theorem Sound.way {ctx : RoundContext} {job : Job} {b : Breach} (hSound : b.Sound ctx job)
    (hBlames : ctx.Blames b.failure) : b.ThroughProxy ∨ b.OverSubServer := by
  have hRouted := hSound.routed hBlames.related
  have hProxied : ctx.proxy.isSome = true := Option.isSome_iff_exists.mpr hBlames.proxied
  rw [Attempt.Routed, hProxied, Bool.and_true] at hRouted
  cases hProtocol : b.attempt.protocol with
  | ossh => exact .inl ⟨hProtocol, by rw [hRouted, hProtocol]; rfl⟩
  | unfrontedMeekOssh | frontedMeekOssh =>
      refine .inr ⟨?_, ?_⟩
      · rw [hProtocol]
        rfl
      · rw [hRouted, hProtocol]
        rfl

end Breach

/-- Failures among which none of an attempt over a sub-server looks like one of the
proxy. -/
def RoundContext.Fair (ctx : RoundContext) (breaches : List Breach) : Prop :=
  ∀ b ∈ breaches, b.OverSubServer → ¬ ctx.Blames b.failure

/-! ## Acts that report nothing -/

theorem reportLines_eq_nil {acts : List Act}
    (hSilent : ∀ line, .noted line ∈ acts → line.isReport = false) : reportLines acts = [] := by
  refine List.filter_eq_nil_iff.mpr fun line hMem => ?_
  obtain ⟨act, hAct, hLine⟩ := List.mem_filterMap.mp hMem
  cases act with
  | noted notice =>
      cases hLine
      simp [hSilent line hAct]
  | _ => cases hLine

theorem reportLines_of_conclusion {acts : List Act} (hActs : ∀ act ∈ acts, act.OfConclusion) :
    reportLines acts = [] := by
  refine reportLines_eq_nil fun line hMem => ?_
  have hLine := hActs _ hMem
  cases line <;> first | rfl | cases hLine

theorem reportLines_setUp {scene : Scene} {acts : List Act}
    (hActs : ∀ act ∈ acts, act ∈ Round.setUpNotices scene) : reportLines acts = [] := by
  refine reportLines_eq_nil fun line hMem => ?_
  rcases Round.of_mem_setUpNotices (hActs _ hMem) with hLine | hLine | ⟨_, _, hLine⟩ <;>
    cases hLine <;> rfl

namespace Round

variable {c next : Coordinator} {request : SelectionRequest} {amb : Ambient}
  {round later : Round} {event : RoundEvent} {acts : List Act}

theorem reportLines_look (scene : Scene) :
    reportLines (look c request amb round scene).2.2 = [] := by
  unfold look
  split
  · split
    · rfl
    · obtain ⟨setUp, last, hActs, hSetUp, hLast⟩ := acts_dispatch c request amb round scene
      have hQuiet : reportLines (setUp ++ last) = [] := by
        rw [reportLines_append, reportLines_setUp hSetUp, reportLines_of_conclusion hLast]
        rfl
      simp only [hActs]
      exact hQuiet
  · unfold awaitsNotice
    split <;> rfl

/-- A round that searches for a network reports no failure. -/
theorem reportLines_of_searches (hSearches : round.Searches)
    (hStep : round.step c request amb event = some (next, later, acts)) :
    reportLines acts = [] := by
  rcases hSearches with hAsking | ⟨sleep, hSleeping⟩
  · cases event with
    | look scene =>
        simp only [step, hAsking, Option.some.injEq] at hStep
        have hLook : reportLines (look c request amb round scene).2.2 = [] :=
          reportLines_look scene
        rwa [hStep] at hLook
    | wake | race => simp [step, hAsking] at hStep
  · cases event with
    | wake =>
        simp only [step, hSleeping] at hStep
        split at hStep
        · cases hStep
          rfl
        · cases hStep
    | look | race => simp [step, hSleeping] at hStep

end Round

/-! ## The failures of a round -/

namespace RoundTrace

/-- The attempts that fail in a round while a schedule is played, in the order in which
they do. -/
def breaches (request : SelectionRequest) (t : RoundTrace) :
    List (Ambient × RoundEvent) → List Breach
  | [] => []
  | event :: rest =>
      (t.round.breach? event.1 event.2).toList ++
        match t.step request event with
        | some next => next.breaches request rest
        | none => []

/-- What the log and the flag of a round in this scene are, given the attempts that failed
in it. -/
structure Tallies (request : SelectionRequest) (start : Coordinator) (scene : Scene)
    (breaches : List Breach) (t : RoundTrace) : Prop where
  collects : Collects request start scene 0 t
  reports : reportLines t.acts =
    ((Round.contextOf start request scene).reported (breaches.map Breach.report)).lines
  flag : ∀ ctx race, t.round.phase = .racing ctx race → race.pool.told =
    ((Round.contextOf start request scene).reported (breaches.map Breach.report)).told
  sound : ∀ b ∈ breaches, ∃ job ∈ start.jobsIn scene,
    b.Sound (Round.contextOf start request scene) job

/-- What a round has come to, as far as its failures are concerned. -/
inductive Ledger (request : SelectionRequest) (start : Coordinator)
    (schedule : List (Ambient × RoundEvent)) (breaches : List Breach) (t : RoundTrace) :
    Prop where
  /-- It has not sent its probes out, and nobody has failed. -/
  | unsent (hPhase : ∀ ctx race, t.round.phase ≠ .racing ctx race) (hNone : breaches = [])
      (hSilent : reportLines t.acts = []) : Ledger request start schedule breaches t
  /-- It has sent them out after the look that found this scene. -/
  | sent {early rest : List (Ambient × RoundEvent)} {amb : Ambient} {scene : Scene}
      (hSchedule : schedule = early ++ (amb, .look scene) :: rest)
      (hSends : scene.SendsOut amb) (hTallies : Tallies request start scene breaches t) :
      Ledger request start schedule breaches t

section Ledger

variable {request : SelectionRequest} {start : Coordinator} {t after : RoundTrace}
  {schedule : List (Ambient × RoundEvent)} {event : Ambient × RoundEvent} {scene : Scene}
  {bs : List Breach}

/-- One more event adds at most one failure. -/
theorem breaches_snoc {u : RoundTrace} :
    ∀ {schedule : List (Ambient × RoundEvent)} {t : RoundTrace},
      t.play request schedule = some u →
      t.breaches request (schedule ++ [event]) =
        t.breaches request schedule ++ (u.round.breach? event.1 event.2).toList
  | [], t, hPlay => by
      cases hPlay
      simp only [breaches, List.nil_append]
      split <;> simp
  | first :: rest, t, hPlay => by
      rw [play, playSchedule_cons, Option.bind_eq_some_iff] at hPlay
      obtain ⟨next, hStep, hRest⟩ := hPlay
      rw [List.cons_append, breaches, breaches, hStep]
      simp only [List.append_assoc]
      rw [breaches_snoc hRest]

theorem breach?_of_not_racing {round : Round} {amb : Ambient} {event : RoundEvent}
    (hPhase : ∀ ctx race, round.phase ≠ .racing ctx race) : round.breach? amb event = none := by
  cases event with
  | look | wake => rfl
  | race event =>
      cases hIs : round.phase with
      | racing ctx race => exact absurd hIs (hPhase ctx race)
      | asking | sleeping | ended | crashed => simp only [Round.breach?, hIs]

/-- A round that has just sent its probes out has no failures to tell of. -/
theorem tallies_launched {amb : Ambient} (hLaunched : Launched request start amb scene t)
    (hSilent : reportLines t.acts = []) : Tallies request start scene [] t where
  collects := hLaunched.collects
  reports := hSilent
  flag ctx race hRacing := by
    cases hLaunched with
    | races _ hRaces =>
        cases hRaces.phase.symm.trans hRacing
        rfl
    | deserted _ hConcluded => cases hConcluded.phase.symm.trans hRacing
  sound b hMem := by cases hMem

/-- An event of a race adds the report of the attempt that failed in it. -/
theorem Tallies.race {race : Race} {l : PoolLedger} {amb : Ambient} {event : RoundEvent}
    (hTallies : Tallies request start scene bs t) (hRaces : Races request start t scene race l)
    (hStep : t.step request (amb, event) = some after) :
    Tallies request start scene (bs ++ (t.round.breach? amb event).toList) after := by
  have hCollects := hTallies.collects.step hStep
  obtain ⟨coordinator, round, acts, hRound, rfl⟩ := step_eq_some hStep
  obtain ⟨raceEvent, next, raceActs, more, hNext⟩ := Round.races_of_step hRaces.phase hRound
  obtain rfl := hNext.event
  have hBreach : t.round.breach? amb (.race raceEvent) =
      race.breach? (Round.contextOf start request scene) amb raceEvent := by
    simp only [Round.breach?, hRaces.phase]
  obtain ⟨hTold, hLines, -⟩ :=
    Race.tells_step (hTallies.flag _ race hRaces.phase).symm hNext.step
  rw [RoundContext.tell_reported] at hTold hLines
  rw [hBreach]
  refine ⟨hCollects, ?_, ?_, ?_⟩
  · rw [hNext.acts, reportLines_append, reportLines_append,
      reportLines_of_conclusion hNext.more, List.append_nil, hTallies.reports, hLines]
  · intro ctx later hLater
    rcases hNext.later with hPhase | hPhase | ⟨winner, hPhase⟩ <;>
      cases hPhase.symm.trans hLater
    exact hTold
  · have hBalanced := hRaces.raced.reached.balanced
    have hRunning := hBalanced.runners
    have hQueue := hBalanced.queue_subset
    rw [hRaces.tracks.pool] at hRunning hQueue
    intro b hMem
    rcases List.mem_append.mp hMem with hOld | hNew
    · exact hTallies.sound b hOld
    · exact Race.sound_breach hRunning hQueue (Option.mem_toList.mp hNew)

theorem Tallies.step (hTallies : Tallies request start scene bs t)
    (hStep : t.step request event = some after) :
    Tallies request start scene (bs ++ (t.round.breach? event.1 event.2).toList) after := by
  obtain ⟨l, -, ⟨race, hRaces⟩ | hConcluded | hCollapsed⟩ := hTallies.collects
  · exact hTallies.race hRaces hStep
  · rw [step_ended hConcluded.phase] at hStep
    cases hStep
  · rw [step_crashed hCollapsed.phase] at hStep
    cases hStep

/-- A round whose probes are not out goes on without a failure, and sends them out in one
way only. -/
theorem unsent_step (hPlay : (RoundTrace.start start).play request schedule = some t)
    (hPhase : ∀ ctx race, t.round.phase ≠ .racing ctx race) (hSilent : reportLines t.acts = [])
    (hStep : t.step request event = some after) :
    Ledger request start (schedule ++ [event]) [] after := by
  cases stands_play hPlay with
  | searches hSearches =>
      obtain ⟨amb, happening⟩ := event
      have hQuiet : reportLines after.acts = [] := by
        obtain ⟨coordinator, round, acts, hRound, rfl⟩ := step_eq_some hStep
        rw [reportLines_append, hSilent, Round.reportLines_of_searches hSearches.phase hRound]
        rfl
      rcases hSearches.step_or_launched hStep with
        hLater | hEnded | hCrashed | ⟨amb, scene, hEvent, hSends, hLaunched⟩
      · refine .unsent (fun ctx race hRacing => ?_) rfl hQuiet
        rcases hLater.phase with hOther | ⟨sleep, hOther⟩ <;> cases hOther.symm.trans hRacing
      · exact .unsent (fun ctx race hRacing => by cases hEnded.symm.trans hRacing) rfl hQuiet
      · exact .unsent (fun ctx race hRacing => by cases hCrashed.symm.trans hRacing) rfl hQuiet
      · rw [hEvent]
        exact .sent rfl hSends (tallies_launched hLaunched hQuiet)
  | races hRaces => exact absurd hRaces.phase (hPhase _ _)
  | gaveUp hOther | concluded hOther =>
      rw [step_ended hOther.phase] at hStep
      cases hStep
  | crashed hOther | collapsed hOther =>
      rw [step_crashed hOther.phase] at hStep
      cases hStep

/-- Whatever happens to a round, its log and its flag are those of its failed attempts. -/
theorem ledger_play :
    ∀ {schedule : List (Ambient × RoundEvent)} {t : RoundTrace},
      (RoundTrace.start start).play request schedule = some t →
      Ledger request start schedule ((RoundTrace.start start).breaches request schedule) t := by
  intro schedule
  induction schedule using List.reverseRecOn with
  | nil =>
      intro t hPlay
      cases hPlay
      exact .unsent (fun ctx race hRacing => by cases hRacing) rfl rfl
  | append_singleton schedule event ih =>
      intro t hPlay
      rw [play, playSchedule_append, Option.bind_eq_some_iff] at hPlay
      obtain ⟨u, hEarly, hLast⟩ := hPlay
      rw [playSchedule_cons, Option.bind_eq_some_iff] at hLast
      obtain ⟨after, hStep, hEnd⟩ := hLast
      cases hEnd
      rw [breaches_snoc hEarly]
      cases ih hEarly with
      | unsent hPhase hNone hSilent =>
          rw [hNone, breach?_of_not_racing hPhase]
          exact unsent_step hEarly hPhase hSilent hStep
      | sent hSchedule hSends hTallies =>
          have hLonger := congrArg (· ++ [event]) hSchedule
          simp only [List.append_assoc, List.cons_append] at hLonger
          exact .sent hLonger hSends (hTallies.step hStep)

end Ledger

/-! ## Whom it blames -/

/-- Whom a round with this context and these jobs has blamed for the failures of its
attempts. -/
structure Blaming (ctx : RoundContext) (jobs : List Job) (breaches : List Breach)
    (t : RoundTrace) : Prop where
  /-- They were attempts at its jobs. -/
  serves : ∀ b ∈ breaches, ∃ job ∈ jobs, b.attempt.Serves ctx job
  /-- It has told of them in the order in which they failed. -/
  reports : reportLines t.acts = (ctx.reported (breaches.map Breach.report)).lines
  /-- The one grave line of the round is used up by the first shared failure. -/
  flag : ∀ raced race, t.round.phase = .racing raced race →
    (race.pool.told = true ↔ ∃ first, ctx.firstShared breaches = some first)
  /-- An attempt that fails as with a broken proxy went through it or over a sub-server. -/
  ways : ∀ b ∈ breaches, ctx.Blames b.failure → b.ThroughProxy ∨ b.OverSubServer
  /-- The proxy is blamed if the first shared failure looks like one of the proxy, and for
  nothing else. -/
  blamed : ∀ failure, .proxyConnectError failure ∈ notices t.acts ↔
    ∃ first, ctx.firstShared breaches = some first ∧ first.failure = failure ∧
      ctx.Blames failure
  /-- If no attempt over a sub-server fails so, it is blamed only for attempts that went
  through it. -/
  just : ctx.Fair breaches → ∀ failure, .proxyConnectError failure ∈ notices t.acts →
    ∃ b ∈ breaches, b.ThroughProxy ∧ b.failure = failure
  /-- Then it is blamed for the first of them that fails so, unless all candidates
  shared a broken route before. -/
  kept : ctx.Fair breaches → ∀ before b later, breaches = before ++ b :: later →
    ctx.Blames b.failure →
    (∀ other ∈ before, ¬ other.failure.Unreachable ∧
      ¬ (other.ThroughProxy ∧ ctx.Blames other.failure)) →
    .proxyConnectError b.failure ∈ notices t.acts

theorem Tallies.blaming {request : SelectionRequest} {start : Coordinator} {scene : Scene}
    {bs : List Breach} {t : RoundTrace} (hTallies : Tallies request start scene bs t) :
    Blaming (Round.contextOf start request scene) (start.jobsIn scene) bs t := by
  have hWays : ∀ b ∈ bs, (Round.contextOf start request scene).Blames b.failure →
      b.ThroughProxy ∨ b.OverSubServer := by
    intro b hMem hBlames
    obtain ⟨job, -, hSound⟩ := hTallies.sound b hMem
    exact hSound.way hBlames
  have hBlamed : ∀ failure, .proxyConnectError failure ∈ notices t.acts ↔
      ∃ first, (Round.contextOf start request scene).firstShared bs = some first ∧
        first.failure = failure ∧ (Round.contextOf start request scene).Blames failure := by
    intro failure
    rw [← RoundContext.proxyConnectError_mem_reported, ← hTallies.reports, reportLines,
      List.mem_filter]
    simp [Notice.isReport]
  refine ⟨?_, hTallies.reports, ?_, hWays, hBlamed, ?_, ?_⟩
  · intro b hMem
    obtain ⟨job, hJob, hSound⟩ := hTallies.sound b hMem
    exact ⟨job, hJob, hSound.serves⟩
  · intro ctx race hRacing
    rw [hTallies.flag ctx race hRacing, RoundContext.told_reported_iff]
  · intro hFair failure hLine
    obtain ⟨first, hFirst, rfl, hBlames⟩ := (hBlamed failure).mp hLine
    have hMem : first ∈ bs := List.mem_of_find?_eq_some hFirst
    refine ⟨first, hMem, ?_, rfl⟩
    exact (hWays first hMem hBlames).resolve_right fun hOver => hFair first hMem hOver hBlames
  · rintro hFair before b later rfl hBlames hBefore
    refine (hBlamed _).mpr ⟨b, RoundContext.firstShared_append hBlames.shares ?_, rfl, hBlames⟩
    -- Whatever was shared before was a broken route, or put down to the proxy.
    intro other hOther hShares
    obtain ⟨hReached, hSpared⟩ := hBefore other hOther
    have hMem : other ∈ before ++ b :: later := List.mem_append_left _ hOther
    rcases hShares.common with hUnreachable | hSuspect
    · exact hReached hUnreachable
    · rcases hWays other hMem hSuspect with hProxied | hOver
      · exact hSpared ⟨hProxied, hSuspect⟩
      · exact hFair other hMem hOver hSuspect

/-- However the attempts of a round come to fail, the round tells of them in this order,
and it blames the proxy for the first failure that all candidates share if that looks like
one of the proxy.  As long as no attempt over a sub-server fails so, the proxy is blamed
for attempts that went through it only, and no other attempt uses up the line that is
theirs.  A round that has not sent its probes out tells of no failure. -/
theorem proxy_blamed_for_first_shared (request : SelectionRequest) (start : Coordinator)
    (schedule : List (Ambient × RoundEvent)) (t : RoundTrace)
    (hPlay : (RoundTrace.start start).play request schedule = some t) :
    (∃ early amb scene rest, schedule = early ++ (amb, .look scene) :: rest ∧
        scene.SendsOut amb ∧
        Blaming (Round.contextOf start request scene) (start.jobsIn scene)
          ((RoundTrace.start start).breaches request schedule) t) ∨
      (RoundTrace.start start).breaches request schedule = [] ∧ reportLines t.acts = [] := by
  cases ledger_play hPlay with
  | unsent _ hNone hSilent => exact .inr ⟨hNone, hSilent⟩
  | sent hSchedule hSends hTallies =>
      exact .inl ⟨_, _, _, _, hSchedule, hSends, hTallies.blaming⟩

end RoundTrace

namespace Sample

/-- A network behind a proxy. -/
def behindProxy : Scene := { proxy := some ⟨"proxy", 3128, none⟩ }

/-- A round that finds such a network, and in whose race this happens. -/
def proxiedSchedule (events : List (Nat × Race.Event)) : List (Ambient × RoundEvent) :=
  (moment 0, .look behindProxy) :: events.map fun event => (moment event.1, .race event.2)

theorem scene_of_schedule {events : List (Nat × Race.Event)}
    {early rest : List (Ambient × RoundEvent)} {amb : Ambient} {scene : Scene}
    (hSplit : proxiedSchedule events = early ++ (amb, .look scene) :: rest) :
    scene = behindProxy := by
  cases early with
  | nil => exact (RoundEvent.look.inj (Prod.mk.inj (List.cons.inj hSplit).1).2).symm
  | cons first more =>
      have hMem : (amb, RoundEvent.look scene) ∈
          events.map fun event => (moment event.1, .race event.2) :=
        (List.cons.inj hSplit).2 ▸ List.mem_append_right more List.mem_cons_self
      obtain ⟨event, -, hEvent⟩ := List.mem_map.mp hMem
      cases hEvent

/-- Both relays are probed, and the sub-server of one of them does not start.  Then the
proxy turns out to have no address. -/
def nothingWorks : List (Nat × Race.Event) :=
  [(0, .pool .take), (0, .pool .take),
    (5, .pool (.answer 1 (.started (.error (.subServer "down"))))),
    (10, .pool (.answer 0 (.resolved none)))]

/-- The same, but for a sub-server that starts and refuses the connection. -/
def refusedOnLoopback : List (Nat × Race.Event) :=
  [(0, .pool .take), (0, .pool .take), (5, .pool (.answer 1 (.started (.ok 4000)))),
    (8, .pool (.answer 1 (.dialed (some (.ofKind .connectionRefused))))),
    (10, .pool (.answer 0 (.resolved none)))]

/-- The attempt at the covered relay failed, and then that at the plain one, which went
through the proxy. -/
structure FailInTurn (breaches : List Breach) (first second : Breach) : Prop where
  all : breaches = [first, second]
  covered : first.OverSubServer
  plain : second.ThroughProxy

theorem failInTurn {breaches : List Breach} {failure later : Failure}
    (hBreaches : breaches.map (fun b => (b.failure, b.attempt.protocol, b.attempt.usedProxy)) =
      [(failure, .unfrontedMeekOssh, false), (later, .ossh, true)]) :
    ∃ first second, FailInTurn breaches first second ∧ first.failure = failure ∧
      second.failure = later := by
  match breaches with
  | [first, second] =>
      simp only [List.map_cons, List.map_nil, List.cons.injEq, Prod.mk.injEq, and_true] at hBreaches
      obtain ⟨⟨hFailure, hCovered, hPast⟩, hLater, hPlain, hThrough⟩ := hBreaches
      exact ⟨first, second, ⟨rfl, ⟨by rw [hCovered]; rfl, hPast⟩, ⟨hPlain, hThrough⟩⟩,
        hFailure, hLater⟩
  | [] | [_] | _ :: _ :: _ :: _ => simp at hBreaches

end Sample

namespace RoundTrace

/-- A sub-server that does not start leaves the line to the proxy that cannot be found
after it. -/
theorem lost_proxy_blamed :
    ∃ t first second,
      (RoundTrace.start Sample.coordinator).play {}
          (Sample.proxiedSchedule Sample.nothingWorks) = some t ∧
        Sample.FailInTurn ((RoundTrace.start Sample.coordinator).breaches {}
          (Sample.proxiedSchedule Sample.nothingWorks)) first second ∧
        .proxyConnectError second.failure ∈ notices t.acts := by
  have hRun : ((RoundTrace.start Sample.coordinator).play {}
      (Sample.proxiedSchedule Sample.nothingWorks)).isSome = true := by decide +kernel
  obtain ⟨t, hPlay⟩ := Option.isSome_iff_exists.mp hRun
  obtain ⟨first, second, hTurn, hFirst, hSecond⟩ :=
    @Sample.failInTurn ((RoundTrace.start Sample.coordinator).breaches {}
      (Sample.proxiedSchedule Sample.nothingWorks)) (.subServer "down") (.unresolved "proxy" 3128)
      (by decide +kernel)
  refine ⟨t, first, second, hPlay, hTurn, ?_⟩
  have hOwn : ∀ {ctx : RoundContext}, ¬ ctx.Blames first.failure := by
    intro ctx hBlames
    rw [hFirst] at hBlames
    cases hBlames.related
  rcases proxy_blamed_for_first_shared {} Sample.coordinator _ t hPlay with
    ⟨early, amb, scene, rest, hSplit, -, hBlaming⟩ | ⟨hNone, -⟩
  · obtain rfl := Sample.scene_of_schedule hSplit
    refine hBlaming.kept ?_ [first] second [] hTurn.all ?_ ?_
    · intro b hMem hOver
      rw [hTurn.all] at hMem
      rcases List.mem_pair.mp hMem with rfl | rfl
      · exact hOwn
      · cases hTurn.plain.usedProxy.symm.trans hOver.unproxied
    · rw [hSecond]
      exact ⟨⟨_, rfl⟩, .unresolved _ _⟩
    · intro other hMem
      obtain rfl := List.mem_singleton.mp hMem
      refine ⟨?_, fun hOther => hOwn hOther.2⟩
      rw [hFirst]
      nofun
  · cases hTurn.all.symm.trans hNone

/-- The proxy is blamed for a sub-server that refused a connection on this host, and the
attempt that could not find the proxy afterwards goes untold. -/
theorem refused_sub_server_blamed_on_proxy :
    ∃ t first second,
      (RoundTrace.start Sample.coordinator).play {}
          (Sample.proxiedSchedule Sample.refusedOnLoopback) = some t ∧
        Sample.FailInTurn ((RoundTrace.start Sample.coordinator).breaches {}
          (Sample.proxiedSchedule Sample.refusedOnLoopback)) first second ∧
        first.failure = .connect ⟨.loopback, 4000⟩ (.ofKind .connectionRefused) ∧
        second.failure = .unresolved "proxy" 3128 ∧
        reportLines t.acts = [.proxyConnectError first.failure] := by
  have hRun : ((RoundTrace.start Sample.coordinator).play {}
      (Sample.proxiedSchedule Sample.refusedOnLoopback)).map (fun t => reportLines t.acts) =
      some [.proxyConnectError (.connect ⟨.loopback, 4000⟩ (.ofKind .connectionRefused))] := by
    decide +kernel
  obtain ⟨t, hPlay, hLines⟩ := Option.map_eq_some_iff.mp hRun
  obtain ⟨first, second, hTurn, hFirst, hSecond⟩ :=
    @Sample.failInTurn ((RoundTrace.start Sample.coordinator).breaches {}
      (Sample.proxiedSchedule Sample.refusedOnLoopback))
      (.connect ⟨.loopback, 4000⟩ (.ofKind .connectionRefused)) (.unresolved "proxy" 3128)
      (by decide +kernel)
  exact ⟨t, first, second, hPlay, hTurn, hFirst, hSecond, by rw [hLines, hFirst]⟩

end RoundTrace

end RelayRace
