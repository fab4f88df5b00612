import Mathlib.Data.List.Nodup
import RelayRace.Proofs.Probe.Prompt
import RelayRace.Proofs.Selection.PoolLedger
import RelayRace.Proofs.Selection.RaceStep

/-!
# How a pool heeds its signal

A pool hands its workers on to their turns, so it heeds the signal as they do.
Whoever is at work after an event was at work before it as he is now, or was armed
in it.  While the signal is raised, an event takes at most one worker off the pool,
and that one's outcome is sent (`Pool.mem_or_sent`); it is one to which the stage
that he was in could lead without a further one (`Attempt.EndsWith`).

The other steps of a race make no acts but those that close what is held.
-/

namespace RelayRace

/-- What an attempt that enters no further stage can end with: it responds only if it
was in its handshake. -/
structure Attempt.EndsWith (a : Attempt) (o : Outcome) : Prop where
  index : o.index = a.index
  handshaking : o.responded = true → a.stage = .handshaking

theorem Turn.Prompt.endsWith {ctx : RoundContext} {m : Moment} {job : Job} {a : Attempt}
    {turn : Turn} {o : Outcome} (hTurn : Turn.Prompt ctx m (some a) turn)
    (hLawful : Turn.Lawful ctx job a.held turn) (hServes : a.Sound ctx job)
    (hEnded : turn.standing = .ended o) : a.EndsWith o := by
  simp only [Turn.Lawful, hEnded] at hLawful
  refine ⟨hLawful.1.index.trans hServes.index.symm, fun hResponded => ?_⟩
  obtain ⟨b, hSame, hStage⟩ := hTurn.responds o hEnded hResponded
  cases hSame
  exact hStage

namespace Pool

variable {ctx : RoundContext} {m : Moment} {pool after : Pool} {acts : List Act}

/-- What holds of an event of a pool. -/
structure Prompt (ctx : RoundContext) (m : Moment) (pool after : Pool) (acts : List Act) :
    Prop where
  running : ∀ b ∈ after.running, b ∈ pool.running ∨ b.Armed ctx m
  acts : ProbeActs m.aborted acts

theorem prompt_apply {index : Nat} {a : Attempt} {turn : Turn}
    (hFind : pool.worker? index = some a) (hTurn : Turn.Prompt ctx m (some a) turn)
    (hApply : pool.apply index turn = (after, acts)) : Prompt ctx m pool after acts := by
  obtain ⟨standing, told, turnActs⟩ := turn
  cases standing with
  | running next =>
      cases hApply
      refine ⟨fun b hMem => ?_, hTurn.acts⟩
      rcases mem_replace hMem with rfl | ⟨hOld, -⟩
      · rcases hTurn.running b rfl with hSame | hArmed
        · rw [← Option.some.inj hSame]
          exact .inl (mem_of_worker? hFind)
        · exact .inr hArmed
      · exact .inl hOld
  | ended o =>
      cases hApply
      exact ⟨fun b hMem => .inl (List.mem_of_mem_eraseP hMem), hTurn.acts⟩

theorem prompt_take (hTake : pool.take ctx m = some (after, acts)) :
    Prompt ctx m pool after acts := by
  unfold take at hTake
  split at hTake
  · cases hTake
  · split at hTake
    · cases hTake
      exact ⟨fun b hMem => .inl hMem, probeActs_nil⟩
    · rename_i job rest _
      have hTurn : Turn.Prompt ctx m none (Worker.start ctx m pool.told job) :=
        Worker.prompt_start job
      generalize Worker.start ctx m pool.told job = turn at hTake hTurn
      obtain ⟨standing, told, turnActs⟩ := turn
      cases standing with
      | running a =>
          cases hTake
          refine ⟨fun b hMem => ?_, hTurn.acts⟩
          rcases List.mem_append.mp hMem with hOld | hNew
          · exact .inl hOld
          · rw [List.mem_singleton.mp hNew]
            rcases hTurn.running a rfl with hNone | hArmed
            · cases hNone
            · exact .inr hArmed
      | ended o =>
          cases hTake
          exact ⟨fun b hMem => .inl hMem, hTurn.acts⟩

/-- An event of a pool is a turn of a task that looks for a job, or of a worker. -/
theorem step_turn {event : PoolEvent} (hStep : pool.step ctx m event = some (after, acts)) :
    pool.take ctx m = some (after, acts) ∨
      ∃ index a turn, pool.worker? index = some a ∧ Turn.Prompt ctx m (some a) turn ∧
        (∀ job, a.Sound ctx job → Turn.Lawful ctx job a.held turn) ∧
        pool.apply index turn = (after, acts) := by
  cases event with
  | take => exact .inl hStep
  | poll index =>
      simp only [step] at hStep
      split at hStep
      · rename_i a hFind
        split at hStep
        · exact .inr ⟨index, a, _, hFind, Worker.prompt_poll a,
            fun _ hServes => Worker.lawful_poll hServes, Option.some.inj hStep⟩
        · cases hStep
      · cases hStep
  | answer index given =>
      simp only [step] at hStep
      split at hStep
      · rename_i a hFind
        exact .inr ⟨index, a, _, hFind, Worker.prompt_answer a given,
          fun _ hServes => Worker.lawful_answer hServes given, Option.some.inj hStep⟩
      · cases hStep
  | crash index =>
      simp only [step] at hStep
      split at hStep
      · rename_i a hFind
        exact .inr ⟨index, a, _, hFind, Worker.prompt_crash a,
          fun _ hServes => Worker.lawful_crash hServes, Option.some.inj hStep⟩
      · cases hStep

theorem prompt_step {event : PoolEvent} (hStep : pool.step ctx m event = some (after, acts)) :
    Prompt ctx m pool after acts := by
  obtain hTake | ⟨index, a, turn, hFind, hTurn, -, hApply⟩ := step_turn hStep
  · exact prompt_take hTake
  · exact prompt_apply hFind hTurn hApply

/-- While the signal is raised nobody joins those who are at work. -/
theorem Prompt.running_subset (hPrompt : Prompt ctx m pool after acts)
    (hRaised : m.aborted = true) : ∀ b ∈ after.running, b ∈ pool.running := by
  intro b hMem
  rcases hPrompt.running b hMem with hOld | ⟨hLowered, -⟩
  · exact hOld
  · cases hLowered.symm.trans hRaised

/-- Workers with one index are the same worker. -/
theorem eq_of_index (hNodup : (pool.running.map Attempt.index).Nodup) {a b : Attempt}
    (hA : a ∈ pool.running) (hB : b ∈ pool.running) (hIndex : a.index = b.index) : a = b :=
  List.inj_on_of_nodup_map hNodup hA hB hIndex

/-- Taking a job leaves everybody at work. -/
theorem mem_of_take (hTake : pool.take ctx m = some (after, acts)) {a : Attempt}
    (hMem : a ∈ pool.running) : a ∈ after.running := by
  unfold take at hTake
  split at hTake
  · cases hTake
  · split at hTake
    · cases hTake
      exact hMem
    · dsimp only at hTake
      split at hTake
      · cases hTake
        exact List.mem_append_left _ hMem
      · cases hTake
        exact hMem

/-- While the signal is raised, whoever was at work still is, as he was, or his
outcome was sent. -/
theorem mem_or_sent {event : PoolEvent} (hStep : pool.step ctx m event = some (after, acts))
    (hRaised : m.aborted = true) (hNodup : (pool.running.map Attempt.index).Nodup)
    (hSound : ∀ a ∈ pool.running, ∃ job, a.Sound ctx job) {a : Attempt}
    (hMem : a ∈ pool.running) :
    a ∈ after.running ∨ ∃ o, after.channel = pool.channel ++ [o] ∧ a.EndsWith o := by
  obtain hTake | ⟨index, b, turn, hFind, hTurn, hLawful, hApply⟩ := step_turn hStep
  · exact .inl (mem_of_take hTake hMem)
  · have hWorker : b ∈ pool.running := mem_of_worker? hFind
    have hIndex : b.index = index := index_of_worker? hFind
    obtain ⟨job, hServes⟩ := hSound b hWorker
    cases hStanding : turn.standing with
    | running next =>
        -- Under a raised signal a worker that goes on is unchanged.
        left
        rw [apply, hStanding] at hApply
        cases hApply
        rcases hTurn.running next hStanding with hSame | ⟨hLowered, -⟩
        · cases hSame
          refine List.mem_map.mpr ⟨a, hMem, ?_⟩
          by_cases hSame : a.index = b.index
          · rw [if_pos hSame, eq_of_index hNodup hMem hWorker hSame]
          · rw [if_neg hSame]
        · cases hLowered.symm.trans hRaised
    | ended o =>
        rw [apply, hStanding] at hApply
        cases hApply
        by_cases hSame : a.index = b.index
        · rw [eq_of_index hNodup hMem hWorker hSame]
          exact .inr ⟨o, rfl, hTurn.endsWith (hLawful job hServes) hServes hStanding⟩
        · left
          refine (List.mem_eraseP_of_neg ?_).mpr hMem
          rw [← hIndex]
          simpa using hSame

theorem probeActs_kill (raised : Bool) (pool : Pool) : ProbeActs raised pool.kill.2 := by
  intro act hMem
  obtain ⟨a, -, hAct⟩ := List.mem_flatMap.mp hMem
  exact probeActs_closing a.held a.index act hAct

end Pool

namespace Race

variable {settings : Settings} {ctx : RoundContext} {amb : Ambient} {race next : Race}
  {acts : List Act}

/-- A race makes the acts of its probes only, and asks for nothing while the signal
of its workers is raised. -/
theorem probeActs_step {event : Event}
    (hStep : race.step settings ctx amb event = some (next, acts)) :
    ProbeActs (race.moment amb).aborted acts := by
  cases stepsTo_of_step hStep with
  | pool _ hTask => exact (Pool.prompt_step hTask).acts
  | receive | winds | waits => exact probeActs_nil
  | crashes | settles | expires => exact race.pool.probeActs_kill _

end Race

end RelayRace
