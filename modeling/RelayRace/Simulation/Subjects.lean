import RelayRace.Selection.Calls
import RelayRace.Simulation.Clockwork

/-!
# What can be simulated

Single rounds, run loops with their callers, pools whose owner does one thing
after the other, and bare attempts. Each is one of the library's machines
together with what is done to it from outside.
-/

namespace RelayRace.Simulation

/-! ## Rounds -/

/-- What can be done to a round from outside. -/
inductive RoundCue where
  | raiseAbort
  | raiseStop
  deriving DecidableEq, Repr

/-- A round with its signals. -/
structure RoundRun where
  coordinator : Coordinator
  request : SelectionRequest
  round : Round := {}
  abort : Bool := false
  stop : Bool := false
  cues : List (Cue RoundCue) := []

namespace RoundRun

/-- Follows a cue. -/
def follow (r : RoundRun) (cues : List (Cue RoundCue)) : RoundCue → RoundRun
  | .raiseAbort => { r with abort := true, cues }
  | .raiseStop => { r with stop := true, cues }

/-- The next thing that happens. -/
def act (play : Play) (r : RoundRun) : Option (Play × RoundRun) :=
  match roundEvent play r.round with
  | some (event, play) =>
      match r.round.step r.coordinator r.request ⟨play.now, r.abort, r.stop⟩ event with
      | some (coordinator, round, acts) =>
          some (play.perform acts, { r with coordinator, round })
      | none => some (play, r)
  | none => (takeCue play.now r.cues).map fun (cue, rest) => (play, r.follow rest cue)

/-- The result of a round that is over. -/
def result? (r : RoundRun) : Option (Option Winner) :=
  match r.round.phase with
  | .ended winner => some winner
  | .crashed => some none
  | .asking | .sleeping _ | .racing .. => none

/-- A round as a subject. -/
def subject : Subject RoundRun where
  act
  wakes := fun play r => roundWakes play r.round ++ cueTimes r.cues
  isDone := fun r => r.result?.isSome

end RoundRun

/-! ## Run loops -/

/-- What can be done to a selector from outside. -/
inductive RunCue where
  | raiseStop
  | callAbort
  | callRun
  | drop
  deriving DecidableEq, Repr

/-- A selector with its callers and its loops. -/
structure LoopRun where
  coordinator : Coordinator
  request : SelectionRequest
  calls : Calls
  /-- The loops in the order in which they were started. -/
  phases : List LoopPhase := []
  /-- Whether the selector was marked as running when it was run again. -/
  runningBefore : Bool := false
  stop : Bool := false
  cues : List (Cue RunCue) := []

namespace LoopRun

/-- Whether a loop goes on. -/
def isLive : LoopPhase → Bool
  | .ended _ | .crashed => false
  | .deciding | .selecting _ | .refreshing | .resting _ => true

/-- The loop that goes on, with its number. -/
def live? (r : LoopRun) : Option (Nat × LoopPhase) :=
  match r.phases.findIdx? isLive with
  | some number => (r.phases[number]?).map fun phase => (number, phase)
  | none => none

/-- Something happens to the callers. A loop that was started is added. -/
def notify (r : LoopRun) (event : CallEvent) : LoopRun :=
  match r.calls.step event with
  | some calls =>
      { r with
        calls
        phases :=
          if r.phases.length < calls.loops.length then r.phases ++ [.deciding] else r.phases }
  | none => r

/-- Brings a loop to a phase. One that is over exits. -/
def setPhase (r : LoopRun) (number : Nat) (phase : LoopPhase) : LoopRun :=
  let r := { r with phases := r.phases.set number phase }
  if isLive phase then r else r.notify (.exit number)

/-- The first call of a kind that has not ended. -/
def openRun? (r : LoopRun) : Option Nat :=
  r.calls.calls.findIdx? fun call =>
    call.kind == .run && call.stage != .returned && call.stage != .dropped

/-- Drops the run that is under way, and its loop with it. -/
def dropRun (play : Play) (r : LoopRun) : Play × LoopRun :=
  match r.openRun? with
  | some number =>
      match r.live? with
      | some (loop, phase) =>
          (play.perform (RunLoop.cancel phase),
            { r.notify (.drop number) with phases := r.phases.set loop (.ended none) })
      | none => (play, r.notify (.drop number))
  | none => (play, r)

/-- Follows a cue. -/
def follow (play : Play) (r : LoopRun) (cues : List (Cue RunCue)) : RunCue → Play × LoopRun
  | .raiseStop => (play, { r with stop := true, cues })
  | .callAbort => (play, { r with cues }.notify (.call .abort))
  | .callRun =>
      (play, { r with cues, runningBefore := r.calls.running }.notify (.call .run))
  | .drop => dropRun play { r with cues }

/-- The next thing that happens in the loop. -/
def loopAct (play : Play) (r : LoopRun) : Option (Play × LoopRun) :=
  match r.live? with
  | none => none
  | some (number, phase) =>
      match loopEvent play r.coordinator phase with
      | none => none
      | some (event, play) =>
          match RunLoop.step r.coordinator r.request ⟨play.now, r.calls.abort, r.stop⟩ phase
              event with
          | some (coordinator, phase, acts) =>
              some (play.perform acts, { r with coordinator }.setPhase number phase)
          | none => some (play, r)

/-- The next thing that happens. -/
def act (play : Play) (r : LoopRun) : Option (Play × LoopRun) :=
  match r.calls.ready with
  | some number => some (play, r.notify (.advance number))
  | none =>
      match loopAct play r with
      | some next => some next
      | none =>
          match takeCue play.now r.cues with
          | some (cue, rest) => some (follow play r rest cue)
          | none => none

/-- Whether every call has ended and no further run is to come. -/
def isDone (r : LoopRun) : Bool :=
  (r.calls.calls.all fun call => call.stage == .returned || call.stage == .dropped) &&
    r.cues.all fun cue => cue.kind != .callRun

/-- A selector as a subject. -/
def subject : Subject LoopRun where
  act
  wakes := fun play r =>
    (match r.live? with
      | some (_, phase) => loopWakes play phase
      | none => []) ++ cueTimes r.cues
  isDone

end LoopRun

/-! ## Pools -/

/-- What the owner of a pool waits for. -/
inductive PoolWait where
  /-- So many more outcomes. -/
  | outcomes (count : Nat)
  /-- The end of the pool, until the given time. -/
  | ending (limit : Instant)
  /-- The given time. -/
  | time (limit : Instant)
  | nothing
  deriving DecidableEq, Repr

/-- A pool with its owner, who either looks at the channel or waits. -/
structure PoolRun where
  ctx : RoundContext
  pool : Pool
  aborted : Bool := false
  wait : PoolWait := .nothing
  /-- Whether the owner has found the channel empty and lets the pool work. -/
  idle : Bool := false
  received : List Outcome := []
  /-- When the signal is raised from outside. -/
  cues : List (Cue Unit) := []

namespace PoolRun

/-- One event of the pool. -/
def step (play : Play) (r : PoolRun) (event : PoolEvent) : Play × PoolRun :=
  match r.pool.step r.ctx ⟨play.now, r.aborted⟩ event with
  | some (pool, acts) => (play.perform acts, { r with pool })
  | none => (play, r)

/-- The next thing that the pool does while its owner waits. -/
def poolAct (play : Play) (r : PoolRun) (heedsChannel : Bool) : Option (Play × PoolRun) :=
  match poolWork play r.pool with
  | some (event, play) => some (r.step play event)
  | none =>
      if heedsChannel && !r.pool.channel.isEmpty then some (play, { r with idle := false })
      else
        match poolPoll play r.pool with
        | some event => some (r.step play event)
        | none =>
            (takeCue play.now r.cues).map fun (_, cues) =>
              (play, { r with aborted := true, cues })

/-- Receives one outcome, or finds the channel empty. -/
def receive (r : PoolRun) : PoolRun :=
  match r.pool.receive with
  | some (outcome, pool) =>
      { r with
        pool
        received := r.received ++ [outcome]
        wait :=
          match r.wait with
          | .outcomes count => .outcomes (count - 1)
          | wait => wait }
  | none => { r with idle := true }

/-- Ends the pool by force and receives what was sent. -/
def finish (play : Play) (r : PoolRun) : Play × PoolRun :=
  let (killed, acts) := r.pool.kill
  let (rest, pool) := killed.drain
  (play.perform acts, { r with pool, received := r.received ++ rest, wait := .nothing })

/-- The next thing that happens. -/
def act (play : Play) (r : PoolRun) : Option (Play × PoolRun) :=
  match r.wait with
  | .nothing => none
  | .time limit =>
      if limit ≤ play.now then some (play, { r with wait := .nothing })
      else r.poolAct play false
  | .outcomes count =>
      if count = 0 || r.pool.isExhausted then some (play, { r with wait := .nothing })
      else if r.idle then r.poolAct play true
      else some (play, r.receive)
  | .ending limit =>
      if r.pool.isExhausted then some (r.finish play)
      else if r.idle then
        if limit ≤ play.now then some (r.finish play) else r.poolAct play true
      else some (play, r.receive)

/-- A pool as a subject. -/
def subject : Subject PoolRun where
  act
  wakes := fun play r =>
    poolWakes play r.pool ++ cueTimes r.cues ++
      match r.wait with
      | .time limit | .ending limit => [limit]
      | .outcomes _ | .nothing => []
  isDone := fun r => r.wait == .nothing

end PoolRun

/-! ## Attempts -/

/-- A bare attempt. -/
structure AttemptRun where
  ctx : RoundContext
  aborted : Bool := false
  progress : Progress

namespace AttemptRun

/-- Goes on with a step. -/
def goOn (play : Play) (r : AttemptRun) (step : Progress × List Act) : Play × AttemptRun :=
  (play.perform step.2, { r with progress := step.1 })

/-- The next thing that happens. A crash is told as an internal failure. -/
def act (play : Play) (r : AttemptRun) : Option (Play × AttemptRun) :=
  match r.progress with
  | .broken .. | .connected _ => none
  | .waiting a =>
      let moment : Moment := ⟨play.now, r.aborted⟩
      match play.pending with
      | p :: rest =>
          if p.due ≤ play.now then
            let play := { play with pending := rest }
            match p.reaction with
            | .answer given => some (r.goOn play (a.answer r.ctx moment given))
            | .crash => some (r.goOn play (.broken a (.internal "crashed"), []))
          else if a.due ≤ play.now then some (r.goOn play (a.poll r.ctx moment))
          else none
      | [] => if a.due ≤ play.now then some (r.goOn play (a.poll r.ctx moment)) else none

/-- Whether the attempt has ended. -/
def isDone (r : AttemptRun) : Bool :=
  match r.progress with
  | .waiting _ => false
  | .broken .. | .connected _ => true

/-- An attempt as a subject. -/
def subject : Subject AttemptRun where
  act
  wakes := fun play r =>
    match r.progress with
    | .waiting a => a.due :: play.pending.map Pending.due
    | .broken .. | .connected _ => []
  isDone

end AttemptRun

end RelayRace.Simulation
