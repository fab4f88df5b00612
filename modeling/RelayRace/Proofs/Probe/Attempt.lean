import RelayRace.Probe.Worker
import RelayRace.Proofs.Probe.Handles

/-!
# What attempts hold and what outcomes tell

An attempt has an invariant, `Attempt.Sound`: the stage that it is in decides
what it holds, and its candidate differs from the dispatched one in the two
fields that are written back and in nothing else.  One lemma for each step of an
attempt says that the invariant is kept, or that the attempt ended and its
handles are accounted for (`Progress.Lawful`); the steps of a worker inherit
both (`Turn.Lawful`).

An outcome that responded holds a socket and a connection, and a sub-server
exactly when its protocol runs through one; an outcome that did not respond
holds nothing (`Outcome.Sound`).
-/

namespace RelayRace

/-! ## What is written back -/

namespace Candidate

/-- Whether a candidate is another one but for the two fields that probes write
back. -/
def RewriteOf (candidate original : Candidate) : Prop :=
  candidate = { original with connType := candidate.connType, front := candidate.front }

/-- The candidate as a connected probe hands it back. -/
def wroteBack (candidate : Candidate) (protocol : Protocol) : Candidate :=
  match protocol with
  | .frontedMeekOssh =>
      { candidate with connType := some protocol, front := candidate.meekFrontingDomain }
  | .ossh | .unfrontedMeekOssh => { candidate with connType := some protocol }

@[simp] theorem wroteBack_connType (candidate : Candidate) (protocol : Protocol) :
    (candidate.wroteBack protocol).connType = some protocol := by
  cases protocol <;> rfl

/-- Without a sub-server there is no front to write back. -/
theorem wroteBack_of_direct (candidate : Candidate) {protocol : Protocol}
    (hDirect : protocol.usesSubServer = false) :
    candidate.wroteBack protocol = { candidate with connType := some protocol } := by
  cases protocol with
  | ossh => rfl
  | unfrontedMeekOssh | frontedMeekOssh => cases hDirect

theorem wroteBack_rewriteOf (candidate : Candidate) (protocol : Protocol) :
    (candidate.wroteBack protocol).RewriteOf candidate := by
  cases protocol <;> rfl

theorem RewriteOf.refl (candidate : Candidate) : candidate.RewriteOf candidate := rfl

theorem RewriteOf.ipAddress_eq {candidate original : Candidate}
    (hRewrite : candidate.RewriteOf original) : candidate.ipAddress = original.ipAddress := by
  rw [hRewrite]

end Candidate

/-! ## The invariant of an attempt -/

namespace Stage

/-- What an attempt holds while it is in a stage. -/
def holdings (protocol : Protocol) : Stage → Holdings
  | .resolving | .dialing _ => {}
  | .tunnelling => { socket := true }
  | .starting | .dialingSubServer _ => { subServer := true }
  | .handshaking => { socket := true, subServer := protocol.usesSubServer }

/-- Whether a stage belongs to the attempts over a protocol. -/
def Fits (protocol : Protocol) : Stage → Prop
  | .resolving | .dialing _ | .tunnelling => protocol.usesSubServer = false
  | .starting | .dialingSubServer _ => protocol.usesSubServer = true
  | .handshaking => True

/-- The candidate as an attempt in a stage has it. -/
def candidate (original : Candidate) (protocol : Protocol) : Stage → Candidate
  | .handshaking => original.wroteBack protocol
  | .resolving | .dialing _ | .tunnelling | .starting | .dialingSubServer _ =>
      { original with connType := some protocol }

end Stage

/-- What holds of an attempt in every stage and also of one that broke off. -/
structure Attempt.Serves (ctx : RoundContext) (job : Job) (a : Attempt) : Prop where
  index : a.index = job.index
  dispatched : a.dispatched = job.candidate
  chosen : TargetSequence.choose ctx.targets job.candidate = some a.protocol
  candidate : a.candidate.RewriteOf job.candidate

/-- What holds of an attempt under way. -/
structure Attempt.Sound (ctx : RoundContext) (job : Job) (a : Attempt) : Prop where
  index : a.index = job.index
  dispatched : a.dispatched = job.candidate
  chosen : TargetSequence.choose ctx.targets job.candidate = some a.protocol
  fits : a.stage.Fits a.protocol
  held : a.held = a.stage.holdings a.protocol
  candidate : a.candidate = a.stage.candidate job.candidate a.protocol
  usedProxy : a.usedProxy = (!a.protocol.usesSubServer && ctx.proxy.isSome)

theorem Attempt.Sound.serves {ctx : RoundContext} {job : Job} {a : Attempt}
    (hSound : a.Sound ctx job) : a.Serves ctx job where
  index := hSound.index
  dispatched := hSound.dispatched
  chosen := hSound.chosen
  candidate := by
    rw [hSound.candidate]
    cases a.stage with
    | handshaking => exact Candidate.wroteBack_rewriteOf _ _
    | _ => rfl

/-- An attempt that is connected. -/
structure Attempt.Connected (ctx : RoundContext) (job : Job) (a : Attempt) : Prop where
  index : a.index = job.index
  chosen : TargetSequence.choose ctx.targets job.candidate = some a.protocol
  held : a.held =
    { socket := true, subServer := a.protocol.usesSubServer, connection := true }
  candidate : a.candidate = job.candidate.wroteBack a.protocol
  usedProxy : a.usedProxy = (!a.protocol.usesSubServer && ctx.proxy.isSome)

/-- A step of an attempt that held `before`: it goes on with its invariant and
has closed nothing, or it ended and its handles are accounted for. -/
def Progress.Lawful (ctx : RoundContext) (job : Job) (before : Holdings) :
    Progress × List Act → Prop
  | (.waiting a, acts) =>
      a.Sound ctx job ∧ Moves job.index before a.held acts ∧ KeepsOpen job.index acts
  | (.broken a _, acts) => a.Serves ctx job ∧ Moves job.index before a.held acts
  | (.connected a, acts) => a.Connected ctx job ∧ Moves job.index before a.held acts

/-! ## The steps of an attempt -/

namespace Attempt

variable {ctx : RoundContext} {job : Job} {m : Moment}

/-- Entering a stage is lawful when the attempt is sound in that stage and the
acts before it lead to what it holds. -/
theorem lawful_after_enter {before : Holdings} {a : Attempt} {stage : Stage}
    {inquiry : Inquiry} {acts : List Act}
    (hSound : ∀ due, ({ a with stage, due } : Attempt).Sound ctx job)
    (hMoves : Moves job.index before a.held acts) (hKeeps : KeepsOpen job.index acts) :
    Progress.Lawful ctx job before (after acts (a.enter ctx m stage inquiry)) := by
  unfold enter
  split
  · exact ⟨⟨(hSound 0).index, (hSound 0).dispatched, (hSound 0).chosen,
      (hSound 0).serves.candidate⟩, hMoves.append_quiet quiet_nil⟩
  · refine ⟨hSound _, hMoves.append_quiet (quiet_asked _ _), ?_⟩
    intro kind
    simpa [after] using hKeeps kind

theorem lawful_enter {a : Attempt} {stage : Stage} {inquiry : Inquiry}
    (hSound : ∀ due, ({ a with stage, due } : Attempt).Sound ctx job) :
    Progress.Lawful ctx job a.held (a.enter ctx m stage inquiry) :=
  lawful_after_enter hSound (moves_quiet _ _ quiet_nil) (quiet_nil.keepsOpen _)

theorem lawful_broken {a : Attempt} (hSound : a.Sound ctx job) (failure : Failure) :
    Progress.Lawful ctx job a.held (.broken a failure, []) :=
  ⟨hSound.serves, moves_quiet _ _ quiet_nil⟩

/-- An attempt as a worker makes it, before it has entered a stage. -/
structure Begun (ctx : RoundContext) (job : Job) (a : Attempt) : Prop where
  index : a.index = job.index
  dispatched : a.dispatched = job.candidate
  chosen : TargetSequence.choose ctx.targets job.candidate = some a.protocol
  held : a.held = {}
  candidate : a.candidate = { job.candidate with connType := some a.protocol }
  usedProxy : a.usedProxy = false

theorem Begun.serves {a : Attempt} (hBegun : a.Begun ctx job) : a.Serves ctx job where
  index := hBegun.index
  dispatched := hBegun.dispatched
  chosen := hBegun.chosen
  candidate := by rw [hBegun.candidate]; rfl

theorem lawful_beginDirect {a : Attempt} (hBegun : a.Begun ctx job)
    (hDirect : a.protocol.usesSubServer = false) :
    Progress.Lawful ctx job {} (a.beginDirect ctx m) := by
  rw [← hBegun.held]
  exact lawful_enter fun _ =>
    { index := hBegun.index
      dispatched := hBegun.dispatched
      chosen := hBegun.chosen
      fits := hDirect
      held := hBegun.held
      candidate := hBegun.candidate
      usedProxy := by simp [hDirect] }

theorem lawful_beginSubServer {a : Attempt} (hBegun : a.Begun ctx job)
    (hSub : a.protocol.usesSubServer = true) :
    Progress.Lawful ctx job {} (a.beginSubServer ctx m) := by
  unfold beginSubServer
  split
  · exact ⟨hBegun.serves, by rw [hBegun.held]; exact moves_quiet _ _ quiet_nil⟩
  · refine lawful_after_enter (fun _ => ?_) ?_ ?_
    · exact
        { index := hBegun.index
          dispatched := hBegun.dispatched
          chosen := hBegun.chosen
          fits := hSub
          held := by simp [hBegun.held, Stage.holdings]
          candidate := hBegun.candidate
          usedProxy := by simp [hBegun.usedProxy, hSub] }
    · refine ⟨fun kind => ?_, fun kind => ?_, fun h hOther => ?_⟩
      · cases kind <;> simp [hBegun.held, hBegun.index, Holdings.count]
      · cases kind <;> simp [hBegun.index]
      · obtain ⟨kind, owner⟩ := h
        have hOwner : job.index ≠ owner := fun hEq => hOther hEq.symm
        simp [hBegun.index, hOwner]
    · intro kind
      simp

theorem lawful_start {a : Attempt} (hBegun : a.Begun ctx job) :
    Progress.Lawful ctx job {} (a.start ctx m) := by
  unfold start
  split
  · exact ⟨hBegun.serves, by rw [hBegun.held]; exact moves_quiet _ _ quiet_nil⟩
  · rename_i port _
    have hPort : ({ a with port } : Attempt).Begun ctx job :=
      ⟨hBegun.index, hBegun.dispatched, hBegun.chosen, hBegun.held, hBegun.candidate,
        hBegun.usedProxy⟩
    dsimp only
    split
    · rename_i hSub
      exact lawful_beginSubServer hPort hSub
    · rename_i hDirect
      exact lawful_beginDirect hPort (by simpa using hDirect)

/-- Without a tunnel the socket to the proxy is closed at once, whether it was
held before the step or opened in it. -/
theorem moves_needsTunnel {before : Holdings} {a : Attempt} {acts : List Act}
    (hIndex : a.index = job.index) (hHeld : a.held = { socket := true })
    (hMoves : Moves job.index before a.held acts) :
    Moves job.index before { a.held with socket := false }
      (acts ++ [.closed ⟨.socket, a.index⟩]) := by
  have hClosing := hMoves.append_closing
  rw [hHeld] at hClosing ⊢
  simpa [hIndex, Holdings.closing, Holdings.handles] using hClosing

/-- Holding the socket that was just opened. -/
theorem moves_socketOpened {a : Attempt} (hIndex : a.index = job.index)
    (hFree : a.held.socket = false) :
    Moves job.index a.held a.holdSocket.held a.socketOpened := by
  refine ⟨fun kind => ?_, fun kind => ?_, fun h hOther => ?_⟩
  · cases kind <;> simp [socketOpened, holdSocket, hIndex, hFree, Holdings.count]
  · cases kind <;>
      simp [socketOpened, hIndex, hFree, Holdings.count, Bool.toNat_le]
  · obtain ⟨kind, owner⟩ := h
    have hOwner : job.index ≠ owner := fun hEq => hOther hEq.symm
    simp [socketOpened, hIndex, hOwner]

theorem keepsOpen_socketOpened (a : Attempt) (owner : Nat) :
    KeepsOpen owner a.socketOpened := by
  intro kind
  simp [socketOpened]

theorem lawful_dial {a : Attempt} (hSound : a.Sound ctx job)
    (hDirect : a.protocol.usesSubServer = false) (hHeld : a.held = {})
    (hCandidate : a.candidate = { job.candidate with connType := some a.protocol })
    (endpoint : Endpoint) : Progress.Lawful ctx job a.held (a.dial ctx m endpoint) := by
  have hNext : ∀ due, ({ a with stage := .dialing endpoint, due } : Attempt).Sound ctx job :=
    fun _ =>
      { hSound with
        fits := hDirect
        held := hHeld
        candidate := hCandidate }
  unfold dial
  split
  · exact lawful_enter hNext
  · split
    · exact ⟨hSound.serves, moves_quiet _ _ (quiet_guarded _)⟩
    · exact lawful_after_enter hNext (moves_quiet _ _ (quiet_guarded _))
        ((quiet_guarded _).keepsOpen _)

/-- Shaking hands over a socket is lawful after any acts that lead to it. -/
theorem lawful_shake {before : Holdings} {a : Attempt} {acts : List Act}
    (hSound : ∀ due, ({ a with stage := .handshaking, due } : Attempt).Sound ctx job)
    (hMoves : Moves job.index before a.held acts) (hKeeps : KeepsOpen job.index acts) :
    Progress.Lawful ctx job before (after acts (a.shake ctx m)) :=
  lawful_after_enter hSound hMoves hKeeps

theorem noteFront_candidate (a : Attempt)
    (hCandidate : a.candidate = { job.candidate with connType := some a.protocol }) :
    a.noteFront.candidate = job.candidate.wroteBack a.protocol := by
  unfold noteFront
  split <;> rename_i hProtocol <;> simp [hProtocol, hCandidate, Candidate.wroteBack]

theorem noteFront_fields (a : Attempt) :
    a.noteFront.index = a.index ∧ a.noteFront.dispatched = a.dispatched ∧
      a.noteFront.protocol = a.protocol ∧ a.noteFront.held = a.held ∧
      a.noteFront.usedProxy = a.usedProxy := by
  unfold noteFront
  split <;> exact ⟨rfl, rfl, rfl, rfl, rfl⟩

/-- A connected direct socket leads to the tunnel, to the handshake, or to an
attempt that has closed it again. -/
theorem lawful_dialedDirect {a : Attempt} {endpoint : Endpoint} (hSound : a.Sound ctx job)
    (hStage : a.stage = .dialing endpoint) :
    Progress.Lawful ctx job a.held (after a.socketOpened (a.holdSocket.dialedDirect ctx m)) := by
  have hDirect : a.protocol.usesSubServer = false := by
    simpa [Stage.Fits, hStage] using hSound.fits
  have hHeld : a.held = {} := by rw [hSound.held, hStage]; rfl
  have hCandidate : a.candidate = { job.candidate with connType := some a.protocol } := by
    rw [hSound.candidate, hStage]; rfl
  have hSocket : a.holdSocket.held = { socket := true } := by simp [holdSocket, hHeld]
  have hMoves := moves_socketOpened hSound.index (by rw [hHeld])
  unfold dialedDirect
  split
  · unfold enter
    split
    · exact ⟨⟨hSound.index, hSound.dispatched, hSound.chosen, hSound.serves.candidate⟩,
        moves_needsTunnel hSound.index hSocket hMoves⟩
    · refine ⟨{ hSound with fits := hDirect, held := hSocket, candidate := hCandidate },
        hMoves.append_quiet (quiet_asked _ _), fun kind => ?_⟩
      simp [socketOpened, needsTunnel]
  · refine lawful_shake (fun _ => ?_) hMoves (keepsOpen_socketOpened a _)
    exact { hSound with
      fits := trivial
      held := by rw [hSocket]; simp [Stage.holdings, holdSocket, hDirect]
      candidate := hCandidate.trans (job.candidate.wroteBack_of_direct hDirect).symm }

/-- A connection to the sub-server leads to the handshake, with the front
written back. -/
theorem lawful_dialedSubServer {a : Attempt} {endpoint : Endpoint} (hSound : a.Sound ctx job)
    (hStage : a.stage = .dialingSubServer endpoint) :
    Progress.Lawful ctx job a.held
      (after a.socketOpened (a.holdSocket.noteFront.shake ctx m)) := by
  have hSub : a.protocol.usesSubServer = true := by
    simpa [Stage.Fits, hStage] using hSound.fits
  have hHeld : a.held = { subServer := true } := by rw [hSound.held, hStage]; rfl
  have hCandidate : a.candidate = { job.candidate with connType := some a.protocol } := by
    rw [hSound.candidate, hStage]; rfl
  have hMoves := moves_socketOpened hSound.index (by rw [hHeld])
  obtain ⟨hIndex, hDispatched, hProtocol, hFrontHeld, hProxy⟩ := a.holdSocket.noteFront_fields
  refine lawful_shake (fun _ => ?_) (by rw [hFrontHeld]; exact hMoves)
    (keepsOpen_socketOpened a _)
  exact
    { index := hIndex.trans hSound.index
      dispatched := hDispatched.trans hSound.dispatched
      chosen := by
        show _ = some a.holdSocket.noteFront.protocol
        rw [hProtocol]
        exact hSound.chosen
      fits := trivial
      held := by
        show a.holdSocket.noteFront.held =
          { socket := true, subServer := a.holdSocket.noteFront.protocol.usesSubServer }
        rw [hFrontHeld, hProtocol]
        simp [holdSocket, hHeld, hSub]
      candidate := by
        show a.holdSocket.noteFront.candidate =
          job.candidate.wroteBack a.holdSocket.noteFront.protocol
        rw [hProtocol]
        exact noteFront_candidate a.holdSocket hCandidate
      usedProxy := by
        show a.holdSocket.noteFront.usedProxy =
          (!a.holdSocket.noteFront.protocol.usesSubServer && ctx.proxy.isSome)
        rw [hProxy, hProtocol]
        exact hSound.usedProxy }

/-- A broken tunnel closes the socket to the proxy. -/
theorem lawful_tunnelBroken {a : Attempt} (hSound : a.Sound ctx job)
    (hStage : a.stage = .tunnelling) (failure : Failure) :
    Progress.Lawful ctx job a.held (needsTunnel (.broken a failure, [])) := by
  have hHeld : a.held = { socket := true } := by rw [hSound.held, hStage]; rfl
  exact ⟨⟨hSound.index, hSound.dispatched, hSound.chosen, hSound.serves.candidate⟩,
    moves_needsTunnel hSound.index hHeld (moves_quiet _ _ quiet_nil)⟩

/-- The handshake that succeeds connects the attempt. -/
theorem lawful_shaken {a : Attempt} (hSound : a.Sound ctx job)
    (hStage : a.stage = .handshaking) :
    Progress.Lawful ctx job a.held
      (.connected { a with held := { a.held with connection := true } },
        [.opened ⟨.connection, a.index⟩]) := by
  have hHeld : a.held = { socket := true, subServer := a.protocol.usesSubServer } := by
    rw [hSound.held, hStage]; rfl
  refine ⟨?_, fun kind => ?_, fun kind => ?_, fun h hOther => ?_⟩
  · exact
      { index := hSound.index
        chosen := hSound.chosen
        held := by simp [hHeld]
        candidate := by rw [hSound.candidate, hStage]; rfl
        usedProxy := hSound.usedProxy }
  · cases kind <;> simp [hSound.index, hHeld, Holdings.count]
  · cases kind <;> simp [hSound.index, hHeld, Holdings.count, Bool.toNat_le]
  · obtain ⟨kind, owner⟩ := h
    have hOwner : job.index ≠ owner := fun hEq => hOther hEq.symm
    simp [hSound.index, hOwner]

/-- An answer that a stage does not wait for leaves the attempt as it is. -/
theorem lawful_waiting {a : Attempt} (hSound : a.Sound ctx job) :
    Progress.Lawful ctx job a.held (.waiting a, []) :=
  ⟨hSound, moves_quiet _ _ quiet_nil, quiet_nil.keepsOpen _⟩

theorem lawful_answer {a : Attempt} (hSound : a.Sound ctx job) (given : Answer) :
    Progress.Lawful ctx job a.held (a.answer ctx m given) := by
  unfold answer
  split
  case h_1 endpoint hStage =>
    refine lawful_dial hSound ?_ ?_ ?_ endpoint
    · simpa [Stage.Fits, hStage] using hSound.fits
    · rw [hSound.held, hStage]; rfl
    · rw [hSound.candidate, hStage]; rfl
  case h_3 hStage => exact lawful_dialedDirect hSound hStage
  case h_5 hStage =>
    have hDirect : a.protocol.usesSubServer = false := by
      simpa [Stage.Fits, hStage] using hSound.fits
    refine lawful_enter (fun _ => ?_)
    exact { hSound with
      fits := trivial
      held := by
        show a.held = _
        rw [hSound.held, hStage]
        simp [Stage.holdings, hDirect]
      candidate := by
        show a.candidate = _
        rw [hSound.candidate, hStage]
        exact (job.candidate.wroteBack_of_direct hDirect).symm }
  case h_6 hStage => exact lawful_tunnelBroken hSound hStage _
  case h_7 port hStage =>
    refine lawful_after_enter (fun _ => ?_) (moves_quiet _ _ (quiet_started _))
      ((quiet_started _).keepsOpen _)
    exact { hSound with
      fits := by simpa [Stage.Fits, hStage] using hSound.fits
      held := by
        show a.held = _
        rw [hSound.held, hStage]
        rfl
      candidate := by
        show a.candidate = _
        rw [hSound.candidate, hStage]
        rfl }
  case h_9 hStage => exact lawful_dialedSubServer hSound hStage
  case h_11 hStage => exact lawful_shaken hSound hStage
  case h_13 => exact lawful_waiting hSound
  all_goals exact lawful_broken hSound _

theorem lawful_poll {a : Attempt} (hSound : a.Sound ctx job) :
    Progress.Lawful ctx job a.held (a.poll ctx m) := by
  unfold poll
  split
  · split
    · rename_i hStage
      exact lawful_tunnelBroken hSound hStage _
    · exact lawful_broken hSound _
  · refine ⟨?_, moves_quiet _ _ quiet_nil, quiet_nil.keepsOpen _⟩
    exact { hSound with }

end Attempt

end RelayRace
