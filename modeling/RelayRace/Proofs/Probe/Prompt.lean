import RelayRace.Probe.Worker

/-!
# How a probe heeds its signal

A probe looks at its signal on entering a stage and at every poll.  So while the
signal is raised it enters none: whatever happens to an attempt then ends it, or
is an answer that its stage does not wait for and leaves it as it is.  While the
signal is lowered, an attempt that goes on has its next look one poll interval
ahead.  `Progress.Prompt` says both, and with them which acts a probe can make at
all; the turns of a worker inherit it (`Turn.Prompt`).
-/

namespace RelayRace

/-! ## The acts of probes -/

/-- Whether a probe can make an act, given whether its signal is raised. -/
def Act.OfProbe (raised : Bool) : Act → Prop
  | .asked _ _ => raised = false
  | .noted _ | .guarded _ | .made _ _ _ | .started _ | .opened _ | .closed _ => True
  | .checkedConnectivity | .refreshedResolvers | .readList | .movedToFront _ | .fetched _ => False

/-- Acts of probes only. -/
def ProbeActs (raised : Bool) (acts : List Act) : Prop := ∀ act ∈ acts, act.OfProbe raised

section

variable {raised : Bool}

theorem probeActs_nil : ProbeActs raised [] := fun _ hMem => by cases hMem

theorem ProbeActs.append {acts more : List Act} (hActs : ProbeActs raised acts)
    (hMore : ProbeActs raised more) : ProbeActs raised (acts ++ more) := by
  intro act hMem
  rcases List.mem_append.mp hMem with hIn | hIn
  · exact hActs act hIn
  · exact hMore act hIn

theorem probeActs_cons {act : Act} {acts : List Act} (hAct : act.OfProbe raised)
    (hActs : ProbeActs raised acts) : ProbeActs raised (act :: acts) := by
  intro other hMem
  rcases List.mem_cons.mp hMem with rfl | hIn
  · exact hAct
  · exact hActs other hIn

theorem probeActs_singleton {act : Act} (hAct : act.OfProbe raised) : ProbeActs raised [act] := by
  exact probeActs_cons hAct probeActs_nil

theorem probeActs_closing (held : Holdings) (owner : Nat) :
    ProbeActs raised (held.closing owner) := by
  intro act hMem
  obtain ⟨handle, -, rfl⟩ := List.mem_map.mp hMem
  trivial

theorem probeActs_noted (lines : List Notice) : ProbeActs raised (lines.map .noted) := by
  intro act hMem
  obtain ⟨line, -, rfl⟩ := List.mem_map.mp hMem
  trivial

end

/-! ## The steps of an attempt -/

/-- Whether an attempt goes on under a lowered signal with its next look one poll
interval ahead. -/
def Attempt.Armed (ctx : RoundContext) (m : Moment) (a : Attempt) : Prop :=
  m.aborted = false ∧ a.due = m.now + ctx.poll.nanos

/-- What holds of a step of the attempt `before`, or of a new one. -/
structure Progress.Prompt (ctx : RoundContext) (m : Moment) (before : Option Attempt)
    (step : Progress × List Act) : Prop where
  /-- An attempt that goes on is unchanged, or it was armed again. -/
  waits : ∀ next, step.1 = .waiting next → before = some next ∨ next.Armed ctx m
  /-- Only an attempt that was in its handshake gets connected. -/
  connects : ∀ next, step.1 = .connected next → ∃ a, before = some a ∧ a.stage = .handshaking
  acts : ProbeActs m.aborted step.2

namespace Attempt

variable {ctx : RoundContext} {m : Moment} {a : Attempt} {before : Option Attempt}
  {acts : List Act} {step : Progress × List Act}

theorem prompt_enter (stage : Stage) (inquiry : Inquiry) :
    Progress.Prompt ctx m before (a.enter ctx m stage inquiry) := by
  unfold enter
  cases hRaised : m.aborted with
  | true =>
      exact ⟨fun _ hWaits => (by cases hWaits), fun _ hConnects => (by cases hConnects),
        probeActs_nil⟩
  | false =>
      refine ⟨fun next hWaits => .inr ?_, fun _ hConnects => (by cases hConnects),
        probeActs_singleton hRaised⟩
      cases hWaits
      exact ⟨hRaised, rfl⟩

theorem prompt_after (hActs : ProbeActs m.aborted acts) (hStep : Progress.Prompt ctx m before step) :
    Progress.Prompt ctx m before (after acts step) :=
  ⟨hStep.waits, hStep.connects, hActs.append hStep.acts⟩

theorem prompt_broken (failure : Failure) (hActs : ProbeActs m.aborted acts) :
    Progress.Prompt ctx m before (.broken a failure, acts) :=
  ⟨fun _ hWaits => (by cases hWaits), fun _ hConnects => (by cases hConnects), hActs⟩

theorem prompt_needsTunnel (hStep : Progress.Prompt ctx m before step) :
    Progress.Prompt ctx m before (needsTunnel step) := by
  obtain ⟨progress, acts⟩ := step
  cases progress with
  | broken a failure => exact prompt_broken failure (hStep.acts.append (probeActs_singleton trivial))
  | waiting a | connected a => exact hStep

theorem prompt_start : Progress.Prompt ctx m before (a.start ctx m) := by
  unfold start
  split
  · exact prompt_broken _ probeActs_nil
  · dsimp only
    split
    · unfold beginSubServer
      split
      · exact prompt_broken _ probeActs_nil
      · refine prompt_after ?_ (prompt_enter _ _)
        exact probeActs_cons trivial (probeActs_singleton trivial)
    · exact prompt_enter _ _

theorem prompt_dial (endpoint : Endpoint) :
    Progress.Prompt ctx m before (a.dial ctx m endpoint) := by
  unfold dial
  split
  · exact prompt_enter _ _
  · split
    · exact prompt_broken _ (probeActs_singleton trivial)
    · exact prompt_after (probeActs_singleton trivial) (prompt_enter _ _)

theorem prompt_dialedDirect : Progress.Prompt ctx m before (a.dialedDirect ctx m) := by
  unfold dialedDirect
  split
  · exact prompt_needsTunnel (prompt_enter _ _)
  · exact prompt_enter _ _

theorem prompt_answer (given : Answer) :
    Progress.Prompt ctx m (some a) (a.answer ctx m given) := by
  unfold answer
  split
  case h_1 endpoint _ => exact prompt_dial endpoint
  case h_3 => exact prompt_after (probeActs_singleton trivial) prompt_dialedDirect
  case h_5 => exact prompt_enter _ _
  case h_6 => exact prompt_needsTunnel (prompt_broken _ probeActs_nil)
  case h_7 => exact prompt_after (probeActs_singleton trivial) (prompt_enter _ _)
  case h_9 => exact prompt_after (probeActs_singleton trivial) (prompt_enter _ _)
  case h_11 hStage =>
    exact ⟨fun _ hWaits => (by cases hWaits), fun _ _ => ⟨a, rfl, hStage⟩,
      probeActs_singleton trivial⟩
  case h_13 =>
    -- The stage does not wait for this answer.
    refine ⟨fun next hWaits => .inl ?_, fun _ hConnects => (by cases hConnects), probeActs_nil⟩
    cases hWaits
    rfl
  all_goals exact prompt_broken _ probeActs_nil

theorem prompt_poll : Progress.Prompt ctx m before (a.poll ctx m) := by
  unfold poll
  cases hRaised : m.aborted with
  | true =>
      simp only [if_true]
      split
      · exact prompt_needsTunnel (prompt_broken _ probeActs_nil)
      · exact prompt_broken _ probeActs_nil
  | false =>
      refine ⟨fun next hWaits => .inr ?_, fun _ hConnects => (by cases hConnects), probeActs_nil⟩
      cases hWaits
      exact ⟨hRaised, rfl⟩

end Attempt

/-! ## The turns of a worker -/

/-- What holds of a turn of a worker at the attempt `before`, or at a new one. -/
structure Turn.Prompt (ctx : RoundContext) (m : Moment) (before : Option Attempt) (turn : Turn) :
    Prop where
  running : ∀ next, turn.standing = .running next → before = some next ∨ next.Armed ctx m
  /-- Only an attempt that was in its handshake responds. -/
  responds : ∀ o, turn.standing = .ended o → o.responded = true →
    ∃ a, before = some a ∧ a.stage = .handshaking
  acts : ProbeActs m.aborted turn.acts

namespace Worker

variable {ctx : RoundContext} {m : Moment} {told : Bool} {before : Option Attempt}

theorem prompt_settle :
    ∀ {step : Progress × List Act}, Progress.Prompt ctx m before step →
      Turn.Prompt ctx m before (settle ctx m told step)
  | (.waiting a, _), hStep => by
      refine ⟨fun next hRunning => ?_, fun _ hEnded => (by cases hEnded), hStep.acts⟩
      cases hRunning
      exact hStep.waits a rfl
  | (.connected a, _), hStep =>
      ⟨fun _ hRunning => (by cases hRunning), fun _ _ _ => hStep.connects a rfl, hStep.acts⟩
  | (.broken a failure, _), hStep => by
      refine ⟨fun _ hRunning => (by cases hRunning), fun o hEnded hResponded => ?_, ?_⟩
      · cases hEnded
        cases hResponded
      · exact (hStep.acts.append (probeActs_noted _)).append (probeActs_closing _ _)

theorem prompt_start (job : Job) : Turn.Prompt ctx m before (start ctx m told job) := by
  unfold start
  split
  · refine ⟨fun _ hRunning => (by cases hRunning), fun o hEnded hResponded => ?_, probeActs_nil⟩
    cases hEnded
    cases hResponded
  · exact prompt_settle Attempt.prompt_start

theorem prompt_answer (a : Attempt) (given : Answer) :
    Turn.Prompt ctx m (some a) (answer ctx m told a given) :=
  prompt_settle (Attempt.prompt_answer given)

theorem prompt_poll (a : Attempt) : Turn.Prompt ctx m before (poll ctx m told a) :=
  prompt_settle Attempt.prompt_poll

theorem prompt_crash (a : Attempt) : Turn.Prompt ctx m before (crash m told a) := by
  refine ⟨fun _ hRunning => (by cases hRunning), fun o hEnded hResponded => ?_, ?_⟩
  · cases hEnded
    cases hResponded
  · show ProbeActs m.aborted (a.held.closing a.index ++ [.noted _])
    exact (probeActs_closing _ _).append (probeActs_singleton trivial)

end Worker

end RelayRace
