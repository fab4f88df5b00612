import RelayRace.Proofs.Probe.Attempt

/-!
# What a worker hands over

A worker wraps one attempt, so each of its turns inherits the law of the
attempt's step.  What it adds is the outcome: one that responded carries all that
the attempt holds, and one that did not has closed everything on the way.  A
crash and an end by force close what is held at that moment.
-/

namespace RelayRace

/-- What holds of the outcome of a job. -/
structure Outcome.Sound (ctx : RoundContext) (job : Job) (o : Outcome) : Prop where
  index : o.index = job.index
  candidate : o.candidate.RewriteOf job.candidate
  /-- A responder carries its protocol, what it wrote back and all its handles. -/
  responder : o.responded = true → ∃ protocol,
    TargetSequence.choose ctx.targets job.candidate = some protocol ∧
      o.protocol = some protocol ∧ o.candidate = job.candidate.wroteBack protocol ∧
      o.held = { socket := true, subServer := protocol.usesSubServer, connection := true } ∧
      o.usedProxy = (!protocol.usesSubServer && ctx.proxy.isSome) ∧ o.error = none
  /-- Whoever did not respond holds nothing and says why. -/
  loser : o.responded = false → o.held = {} ∧ o.error.isSome

/-- A turn of a worker whose probe held `before`. -/
def Turn.Lawful (ctx : RoundContext) (job : Job) (before : Holdings) (turn : Turn) : Prop :=
  match turn.standing with
  | .running a =>
      a.Sound ctx job ∧ Moves job.index before a.held turn.acts ∧
        KeepsOpen job.index turn.acts
  | .ended o => o.Sound ctx job ∧ Moves job.index before o.held turn.acts

namespace Outcome

/-- An outcome without protocol or handles is a loser's. -/
theorem sound_failed {ctx : RoundContext} {job : Job} {index : Nat} {candidate : Candidate}
    (hIndex : index = job.index) (hCandidate : candidate.RewriteOf job.candidate)
    (protocol : Option Protocol) (elapsed : Duration) (error : String) :
    (Outcome.failed index candidate protocol elapsed error).Sound ctx job where
  index := hIndex
  candidate := hCandidate
  responder hResponded := by cases hResponded
  loser _ := ⟨rfl, rfl⟩

/-- What holds of the winner that an outcome is made into. -/
structure Gives (o : Outcome) (w : Winner) : Prop where
  /-- Nothing is closed on the way. -/
  select : o.select = (some w, [])
  index : w.index = o.index
  candidate : w.candidate = o.candidate
  held : w.held = o.held
  hasSubServer : w.hasSubServer = w.protocol.usesSubServer
  /-- The protocol of the winner is the one that was written back. -/
  protocol : o.candidate.connType = some w.protocol

/-- Every outcome that responded can be made into a winner. -/
theorem Sound.gives {ctx : RoundContext} {job : Job} {o : Outcome} (hSound : o.Sound ctx job)
    (hResponded : o.responded = true) : ∃ w, o.Gives w := by
  obtain ⟨protocol, -, hProtocol, hCandidate, hHeld, -, -⟩ := hSound.responder hResponded
  refine ⟨
    { index := o.index
      candidate := o.candidate
      protocol
      usedProxy := o.usedProxy
      responseTime := o.elapsed
      hasSubServer := o.held.subServer }, ?_⟩
  exact
    { select := by simp [Outcome.select, hProtocol, hResponded, hHeld]
      index := rfl
      candidate := rfl
      held := by simp [Winner.held, hHeld]
      hasSubServer := by simp [hHeld]
      protocol := by rw [hCandidate, Candidate.wroteBack_connType] }

end Outcome

namespace Worker

variable {ctx : RoundContext} {job : Job} {m : Moment} {told : Bool}

theorem lawful_settle {before : Holdings} :
    ∀ {step : Progress × List Act}, Progress.Lawful ctx job before step →
      Turn.Lawful ctx job before (settle ctx m told step)
  | (.waiting _, _), hLawful => hLawful
  | (.connected a, _), ⟨hConnected, hMoves⟩ => by
      refine ⟨?_, hMoves⟩
      exact
        { index := hConnected.index
          candidate := by
            show a.candidate.RewriteOf job.candidate
            rw [hConnected.candidate]
            exact Candidate.wroteBack_rewriteOf _ _
          responder := fun _ =>
            ⟨a.protocol, hConnected.chosen, rfl, hConnected.candidate, hConnected.held,
              hConnected.usedProxy, rfl⟩
          loser := fun hResponded => by cases hResponded }
  | (.broken a failure, acts), ⟨hServes, hMoves⟩ => by
      refine ⟨?_, ?_⟩
      · exact
          { index := hServes.index
            candidate := hServes.candidate
            responder := fun hResponded => by cases hResponded
            loser := fun _ => ⟨rfl, rfl⟩ }
      · have hLines := hMoves.append_quiet
          (quiet_noted id (ctx.report told a.candidate.ipAddress failure).1)
        have hClosed := hLines.append_closing
        rw [← hServes.index] at hClosed ⊢
        exact hClosed

/-- A worker begins with nothing and its first turn is lawful. -/
theorem lawful_start : Turn.Lawful ctx job {} (start ctx m told job) := by
  unfold start
  split
  · exact ⟨Outcome.sound_failed rfl (.refl _) _ _ _, moves_quiet _ _ quiet_nil⟩
  · rename_i protocol hChosen
    refine lawful_settle (Attempt.lawful_start ?_)
    exact
      { index := rfl
        dispatched := rfl
        chosen := hChosen
        held := rfl
        candidate := rfl
        usedProxy := rfl }

theorem lawful_answer {a : Attempt} (hSound : a.Sound ctx job) (given : Answer) :
    Turn.Lawful ctx job a.held (answer ctx m told a given) :=
  lawful_settle (Attempt.lawful_answer hSound given)

theorem lawful_poll {a : Attempt} (hSound : a.Sound ctx job) :
    Turn.Lawful ctx job a.held (poll ctx m told a) :=
  lawful_settle (Attempt.lawful_poll hSound)

/-- A crash closes what was held and yields an outcome without handles. -/
theorem lawful_crash {a : Attempt} (hSound : a.Sound ctx job) :
    Turn.Lawful ctx job a.held (crash m told a) := by
  refine ⟨Outcome.sound_failed hSound.index ?_ _ _ _, ?_⟩
  · rw [hSound.dispatched]
    exact .refl _
  · have hClosing := (moves_closing job.index a.held).append_quiet
      (quiet_noted id [.probeCrashed a.dispatched.ipAddress])
    rw [← hSound.index] at hClosing ⊢
    exact hClosing

end Worker

end RelayRace
