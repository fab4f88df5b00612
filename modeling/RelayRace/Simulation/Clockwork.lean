import RelayRace.Selection.RunLoop
import RelayRace.Simulation.World

/-!
# The clockwork of a simulation

A simulation plays the library's own machines against a scripted world under a
virtual clock. At every instant it lets everything happen that can, in a fixed
order: answers that are due and free tasks first, then the coordinator's
receiving, then its timers, then the looks of waiting probes at their signal.
When nothing is left to do, the clock goes on to the next time at which
something can happen.

A `Subject` is whatever is played; it brings along what it can do next and when
it could do more. `Play` is what all subjects share: the world, the clock, the
answers that are on their way, and the acts so far.
-/

namespace RelayRace.Simulation

/-! ## The shared part -/

/-- An answer on its way to a probe. -/
structure Pending where
  due : Instant
  index : Nat
  reaction : World.Reaction

/-- The world under its clock. -/
structure Play where
  world : World
  now : Instant := 0
  pending : List Pending := []
  /-- What was done, the latest first. -/
  acts : List Act := []

namespace Play

/-- Puts an answer among those that are due no later. -/
def enqueue (p : Pending) : List Pending → List Pending
  | [] => [p]
  | q :: rest => if q.due ≤ p.due then q :: enqueue p rest else p :: q :: rest

/-- One act: it is kept, and an inquiry is put to the world. -/
def record (play : Play) (act : Act) : Play :=
  let play := { play with acts := act :: play.acts }
  match act with
  | .asked index inquiry =>
      match play.world.ask inquiry with
      | (some (delay, reaction), world) =>
          { play with
            world
            pending := enqueue ⟨play.now + delay.nanos, index, reaction⟩ play.pending }
      | (none, world) => { play with world }
  | _ => play

/-- Several acts. -/
def perform (play : Play) (acts : List Act) : Play := acts.foldl record play

end Play

/-! ## Playing -/

/-- What can be played. -/
structure Subject (σ : Type) where
  /-- What it does next at this instant, if anything. -/
  act : Play → σ → Option (Play × σ)
  /-- When it could do something by itself. -/
  wakes : Play → σ → List Instant
  /-- Whether it is done. -/
  isDone : σ → Bool

/-- The earliest of some times. -/
def earliest : List Instant → Option Instant
  | [] => none
  | t :: rest =>
      match earliest rest with
      | some u => some (min t u)
      | none => some t

/-- How many steps one play takes at most. -/
def stepLimit : Nat := 4000000

/-- Plays a subject until it is done; none when the steps or the time up to the
horizon do not suffice. -/
def Subject.playIn {σ : Type} (subject : Subject σ) (horizon : Instant) :
    Nat → Play → σ → Option (Play × σ)
  | 0, _, _ => none
  | fuel + 1, play, state =>
      if subject.isDone state then some (play, state)
      else
        match subject.act play state with
        | some (play, state) => subject.playIn horizon fuel play state
        | none =>
            match earliest (subject.wakes play state) with
            | some t =>
                if t ≤ horizon then subject.playIn horizon fuel { play with now := t } state
                else none
            | none => none

/-- How long one play lasts at most. -/
def patience : Duration := .ofSeconds 60

/-- Plays a subject. -/
def Subject.play {σ : Type} (subject : Subject σ) (play : Play) (state : σ) :
    Option (Play × σ) :=
  subject.playIn (play.now + patience.nanos) stepLimit play state

/-! ## Cues -/

/-- Something that is done from outside at a given time. -/
structure Cue (κ : Type) where
  time : Instant
  kind : κ

/-- Takes the first cue that is due. -/
def takeCue {κ : Type} (now : Instant) : List (Cue κ) → Option (κ × List (Cue κ))
  | [] => none
  | cue :: rest =>
      if cue.time ≤ now then some (cue.kind, rest)
      else (takeCue now rest).map fun (kind, rest) => (kind, cue :: rest)

/-- The times of some cues. -/
def cueTimes {κ : Type} (cues : List (Cue κ)) : List Instant := cues.map Cue.time

/-! ## What happens next in a pool -/

/-- An answer that is due, or a free task. -/
def poolWork (play : Play) (pool : Pool) : Option (PoolEvent × Play) :=
  match play.pending with
  | p :: rest =>
      if p.due ≤ play.now then
        let event : PoolEvent :=
          match p.reaction with
          | .answer given => .answer p.index given
          | .crash => .crash p.index
        some (event, { play with pending := rest })
      else if 0 < pool.free then some (.take, play)
      else none
  | [] => if 0 < pool.free then some (.take, play) else none

/-- A worker that has to look at its signal. -/
def poolPoll (play : Play) (pool : Pool) : Option PoolEvent :=
  (pool.running.find? fun a => a.due ≤ play.now).map fun a => .poll a.index

/-- When something can happen in a pool. -/
def poolWakes (play : Play) (pool : Pool) : List Instant :=
  play.pending.map Pending.due ++ pool.running.map Attempt.due

/-! ## What happens next in a race, a round, and a loop -/

/-- What the coordinator of a race does next. -/
def raceDuty (play : Play) (race : Race) : Option Race.Event :=
  if !race.pool.channel.isEmpty then some .receive
  else
    match race.phase with
    | .waiting => if race.nextTick ≤ play.now then some .tick else none
    | .winding limit =>
        if race.pool.isExhausted then some .settle
        else if limit ≤ play.now then some .expire
        else none
    | .over => none

/-- What happens next in a race. -/
def raceEvent (play : Play) (race : Race) : Option (Race.Event × Play) :=
  match poolWork play race.pool with
  | some (event, play) => some (.pool event, play)
  | none =>
      match raceDuty play race with
      | some event => some (event, play)
      | none => (poolPoll play race.pool).map fun event => (.pool event, play)

/-- When something can happen in a race. -/
def raceWakes (play : Play) (race : Race) : List Instant :=
  poolWakes play race.pool ++
    match race.phase with
    | .waiting => [race.nextTick]
    | .winding limit => [limit]
    | .over => []

/-- What happens next in a round. -/
def roundEvent (play : Play) (round : Round) : Option (RoundEvent × Play) :=
  match round.phase with
  | .asking =>
      let (scene, world) := play.world.scene
      some (.look scene, { play with world, pending := [] })
  | .sleeping sleep => if sleep.wake ≤ play.now then some (.wake, play) else none
  | .racing _ race => (raceEvent play race).map fun (event, play) => (.race event, play)
  | .ended _ | .crashed => none

/-- When something can happen in a round. -/
def roundWakes (play : Play) (round : Round) : List Instant :=
  match round.phase with
  | .sleeping sleep => [sleep.wake]
  | .racing _ race => raceWakes play race
  | .asking | .ended _ | .crashed => []

/-- What happens next in a loop. -/
def loopEvent (play : Play) (c : Coordinator) (phase : LoopPhase) : Option (LoopEvent × Play) :=
  match phase with
  | .deciding => some (.decide, play)
  | .selecting round => (roundEvent play round).map fun (event, play) => (.round event, play)
  | .refreshing =>
      if c.list.asksRemote play.now then
        let (answer, world) := play.world.fetch
        some (.refresh answer, { play with world })
      else some (.refresh (.ok []), play)
  | .resting sleep => if sleep.wake ≤ play.now then some (.wake, play) else none
  | .ended _ | .crashed => none

/-- When something can happen in a loop. -/
def loopWakes (play : Play) (phase : LoopPhase) : List Instant :=
  match phase with
  | .selecting round => roundWakes play round
  | .resting sleep => [sleep.wake]
  | .deciding | .refreshing | .ended _ | .crashed => []

end RelayRace.Simulation
