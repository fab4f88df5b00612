import RelayRace.Selection.Round

/-!
# The run loop

A selection repeats rounds until one has a winner or the selector's signal is
raised. After a round without a winner it moves on to the next targets, asks for
a refresh of the stored list, and rests. The signal is looked at before a round,
after a round and throughout the rest.

A refresh that fails is told and has no other effect.
-/

namespace RelayRace

/-- What a run loop is doing. -/
inductive LoopPhase where
  /-- It is about to start a round. -/
  | deciding
  /-- A round is under way. -/
  | selecting (round : Round)
  /-- It waits for the stored list to be refreshed. -/
  | refreshing
  /-- It rests between two rounds. -/
  | resting (sleep : Sleep)
  /-- It is over. -/
  | ended (winner : Option Winner)
  /-- It crashed. -/
  | crashed
  deriving DecidableEq, Repr

/-- What can happen in a run loop. -/
inductive LoopEvent where
  /-- It looks at the signal and starts a round. -/
  | decide
  /-- Something happens in the round. -/
  | round (event : RoundEvent)
  /-- The refresh is over. The answer counts if the remote source was asked. -/
  | refresh (answer : Except Failure (List Candidate))
  /-- The rest is over, or the signal is looked at in it. -/
  | wake

namespace RunLoop

/-- Goes on after a look at the signal in a rest. -/
def afterLook : Sleep.Look → LoopPhase
  | .aborted => .ended none
  | .rested => .deciding
  | .asleep sleep => .resting sleep

/-- Starts a round unless the signal is raised. -/
def decide (c : Coordinator) (amb : Ambient) : LoopPhase × List Act :=
  if amb.abort then (.ended none, [])
  else (.selecting {}, [.noted (.selecting c.targets.label)])

/-- Moves on to the next targets and tells so. -/
def rotate (c : Coordinator) : Coordinator × List Act :=
  let targets := c.targets.advance
  ({ c with targets }, [.noted (.rotated targets.label)])

/-- Goes on after an event of the round. -/
def afterRound (c : Coordinator) (amb : Ambient) (round : Round) :
    Coordinator × LoopPhase × List Act :=
  match round.phase with
  | .ended (some winner) => (c, .ended (some winner), [])
  | .ended none =>
      if amb.abort then (c, .ended none, [])
      else
        let (c, acts) := rotate c
        (c, .refreshing, acts)
  | .crashed => (c, .crashed, [])
  | .asking | .sleeping _ | .racing .. => (c, .selecting round, [])

/-- What a refresh does and tells. -/
def refreshActs (asked withProtector : Bool) (result : ServerList.Refresh) : List Act :=
  (if asked then [.fetched withProtector] else []) ++ result.notices.map .noted ++
    match result with
    | .failed failure => [.noted (.fetchFailed failure)]
    | .noRemote | .recent | .merged _ => []

/-- Refreshes the stored list and lies down to rest. -/
def refresh (c : Coordinator) (request : SelectionRequest) (amb : Ambient)
    (answer : Except Failure (List Candidate)) : Coordinator × LoopPhase × List Act :=
  let (result, list) := c.list.refresh amb.now answer
  let acts :=
    refreshActs (c.list.asksRemote amb.now) (c.protectorFor request).isSome result
  let (rest, generator) := c.settings.backoff c.generator
  ({ c with list, generator },
    afterLook (Sleep.start amb.now rest c.settings.connectPoll amb.abort), acts)

/-- One event; none when it cannot happen now. -/
def step (c : Coordinator) (request : SelectionRequest) (amb : Ambient) (phase : LoopPhase)
    (event : LoopEvent) : Option (Coordinator × LoopPhase × List Act) :=
  match phase, event with
  | .deciding, .decide =>
      let (phase, acts) := decide c amb
      some (c, phase, acts)
  | .selecting round, .round event =>
      match round.step c request amb event with
      | some (c, round, acts) =>
          let (c, phase, more) := afterRound c amb round
          some (c, phase, acts ++ more)
      | none => none
  | .refreshing, .refresh answer => some (refresh c request amb answer)
  | .resting sleep, .wake =>
      if sleep.wake ≤ amb.now then
        some (c, afterLook (sleep.resume amb.now amb.abort), [])
      else none
  | _, _ => none

/-! ## Being called off from outside -/

/-- What is closed when a loop is ended by force. -/
def cancel : LoopPhase → List Act
  | .selecting { phase := .racing _ race, .. } => race.pool.kill.2
  | _ => []

end RunLoop

end RelayRace
