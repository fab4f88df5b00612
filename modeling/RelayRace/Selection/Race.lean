import RelayRace.Selection.Pool
import RelayRace.Settings

/-!
# The race between the probes

A race is what the coordinator does while the probes are out. It waits, receives
outcomes, and at every tick decides whether to go on. Fine ticks look at the
abort signal and the deadline only; every `ratio`-th of them, the first tick not
counted, also looks at what has been received: one responder is enough, and so
is an outcome from everyone.

When the wait is over, the race raises its own flag, drops the jobs that nobody
has taken and gives the running workers a grace period to wind up. It receives
on until all have sent their outcomes or the grace period is over; in the latter
case the rest is ended by force.

Counting out the `ratio`-th ticks divides by it. A ratio that was cut to zero
crashes the race with the second tick, and that ends the rest by force too.
-/

namespace RelayRace

/-- What is true when a race takes a step: the time, and how the two signals
that a round listens to read. -/
structure Ambient where
  now : Instant
  /-- The selector's own signal. -/
  abort : Bool := false
  /-- The stop signal of whoever asked for the selection. -/
  stop : Bool := false
  deriving DecidableEq, Repr

/-- What a race is doing. -/
inductive RacePhase where
  /-- It waits for results. -/
  | waiting
  /-- It waits for its workers to wind up, until the given time. -/
  | winding (limit : Instant)
  /-- All outcomes there will be are received. -/
  | over
  deriving DecidableEq, Repr

/-- A race under way. -/
structure Race where
  pool : Pool
  dispatched : Nat
  /-- The outcomes in the order in which they were received. -/
  received : List Outcome := []
  /-- How many ticks have passed. -/
  ticks : Nat := 0
  nextTick : Instant
  deadline : Instant
  phase : RacePhase := .waiting
  /-- Whether it is over because a tick crashed. -/
  crashed : Bool := false
  deriving DecidableEq, Repr

namespace Race

/-- Begins a race at the given time. The first tick comes at once. -/
def start (settings : Settings) (now : Instant) (jobs : List Job) : Race where
  pool := Pool.start settings.poolSize jobs
  dispatched := jobs.length
  nextTick := now
  deadline := now + settings.maxRound.nanos

/-- Whether the race's own flag is raised: it is from the end of the wait on. -/
def isOver (race : Race) : Bool := race.phase != .waiting

/-- How the signal of the workers reads. It is derived from the selector's
signal and the stop signal, so it reads as raised when one of them or the
race's own flag is. -/
def moment (race : Race) (amb : Ambient) : Moment where
  now := amb.now
  aborted := race.isOver || amb.abort || amb.stop

/-! ## The end -/

/-- Ends the workers that are left by force, and receives what was sent. -/
def close (race : Race) : Race × List Act :=
  let (killed, acts) := race.pool.kill
  let (rest, pool) := killed.drain
  ({ race with pool, received := race.received ++ rest, phase := .over, crashed := false }, acts)

/-- Crashes the race. -/
def crash (race : Race) : Race × List Act :=
  let (closed, acts) := race.close
  ({ closed with crashed := true }, acts)

/-! ## Waiting -/

/-- Whether the received outcomes are reason enough to stop waiting. -/
def isDecided (race : Race) : Bool :=
  race.received.any Outcome.responded || race.dispatched ≤ race.received.length

/-- Whether a tick also looks at the received outcomes. -/
def isCoarse (ratio ticks : Nat) : Bool := 0 < ticks && ticks % ratio == 0

/-- Whether the wait ends at a tick. -/
def stopsAt (ratio : Nat) (race : Race) (amb : Ambient) : Bool :=
  amb.abort || race.deadline ≤ amb.now || (isCoarse ratio race.ticks && race.isDecided)

/-- Whether a tick divides by zero, which the first one and one that ends the
wait by itself do not. -/
def crashesAt (ratio : Nat) (race : Race) (amb : Ambient) : Bool :=
  ratio == 0 && 0 < race.ticks && !amb.abort && amb.now < race.deadline

/-- Ends the wait. -/
def wind (settings : Settings) (race : Race) (amb : Ambient) : Race :=
  { race with
    pool := race.pool.discard.2
    phase := .winding (amb.now + settings.grace.nanos) }

/-- A tick, when it is due. -/
def tick (settings : Settings) (race : Race) (amb : Ambient) : Option (Race × List Act) :=
  match race.phase with
  | .waiting =>
      if amb.now < race.nextTick then none
      else if race.crashesAt settings.pollRatio amb then some race.crash
      else if race.stopsAt settings.pollRatio amb then some (race.wind settings amb, [])
      else
        some ({ race with
          ticks := race.ticks + 1
          nextTick := amb.now + settings.connectPoll.nanos }, [])
  | .winding _ | .over => none

/-! ## Receiving -/

/-- Receives the next outcome. -/
def receive (race : Race) : Option Race :=
  match race.phase with
  | .waiting | .winding _ =>
      match race.pool.receive with
      | some (outcome, pool) => some { race with pool, received := race.received ++ [outcome] }
      | none => none
  | .over => none

/-! ## Winding up -/

/-- Closes the race when nothing can come any more. -/
def settle (race : Race) : Option (Race × List Act) :=
  match race.phase with
  | .winding _ => if race.pool.isExhausted then some race.close else none
  | .waiting | .over => none

/-- Closes the race when the grace period is over. -/
def expire (race : Race) (amb : Ambient) : Option (Race × List Act) :=
  match race.phase with
  | .winding limit => if limit ≤ amb.now then some race.close else none
  | .waiting | .over => none

/-! ## All events -/

/-- What can happen in a race. -/
inductive Event where
  | pool (event : PoolEvent)
  | receive
  | tick
  | settle
  | expire

/-- One event; none when it cannot happen now. -/
def step (settings : Settings) (ctx : RoundContext) (amb : Ambient) (race : Race)
    (event : Event) : Option (Race × List Act) :=
  match event with
  | .pool event =>
      match race.phase with
      | .waiting | .winding _ =>
          match race.pool.step ctx (race.moment amb) event with
          | some (pool, acts) => some ({ race with pool }, acts)
          | none => none
      | .over => none
  | .receive => race.receive.map (·, [])
  | .tick => race.tick settings amb
  | .settle => race.settle
  | .expire => race.expire amb

end Race

end RelayRace
