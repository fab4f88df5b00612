import RelayRace.Proofs.Selection.Custody
import RelayRace.Proofs.Selection.RaceStep

/-!
# The ledger of a race

A race owns its pool: it receives, drops the waiting jobs when the wait is over,
and closes the pool in the end.  So every step of a race is one move of the
pool's ledger, or none (`moveOf`), and the ledger can follow the race step by step
(`Tracks.step`).  What holds of all ledgers holds of the pool of every race.  When a
race is over, its pool is empty.
-/

namespace RelayRace

namespace PoolLedger

/-- The ledger keeps up with a race. -/
structure Tracks (l : PoolLedger) (race : Race) : Prop where
  pool : l.pool = race.pool
  received : l.received = race.received

/-- Nobody waits or works, and all that was sent is received. -/
structure Closed (l : PoolLedger) : Prop where
  queue : l.pool.queue = []
  running : l.pool.running = []
  channel : l.pool.channel = []

/-- The ledgers that the pool of these jobs can come to. -/
def Reached (ctx : RoundContext) (size : Nat) (jobs : List Job) (l : PoolLedger) : Prop :=
  ∃ moves, (start size jobs).play ctx moves = some l

variable {ctx : RoundContext} {size : Nat} {jobs : List Job} {l after : PoolLedger}

theorem closed_close (l : PoolLedger) : l.close.Closed := ⟨rfl, rfl, rfl⟩

theorem reached_start (ctx : RoundContext) (size : Nat) (jobs : List Job) :
    Reached ctx size jobs (start size jobs) := ⟨[], rfl⟩

theorem Reached.step {move : PoolMove} (hReached : Reached ctx size jobs l)
    (hStep : l.step ctx move = some after) : Reached ctx size jobs after := by
  obtain ⟨moves, hPlay⟩ := hReached
  refine ⟨moves ++ [move], ?_⟩
  rw [play, playSchedule_append]
  rw [play] at hPlay
  rw [hPlay, Option.bind_some, playSchedule_cons, hStep]
  rfl

theorem Reached.balanced (hReached : Reached ctx size jobs l) : l.Balanced ctx size jobs := by
  obtain ⟨_, hPlay⟩ := hReached
  exact balanced_play hPlay

theorem Reached.custody (hReached : Reached ctx size jobs l)
    (hJobs : (jobs.map Job.index).Nodup) : l.Custody := by
  obtain ⟨_, hPlay⟩ := hReached
  exact custody_play hJobs hPlay

/-- The move of the ledger that an event of a race amounts to, if it is one. -/
def moveOf (settings : Settings) (race : Race) (amb : Ambient) : Race.Event → Option PoolMove
  | .pool event => some (.task (race.moment amb) event)
  | .receive => some .receive
  | .tick =>
      if race.crashesAt settings.pollRatio amb then some .expire
      else if race.stopsAt settings.pollRatio amb then some .shutdown
      else none
  | .settle => some .settle
  | .expire => some .expire

/-- The ledger after an event of a race. -/
def follow (settings : Settings) (ctx : RoundContext) (l : PoolLedger) (race : Race)
    (amb : Ambient) (event : Race.Event) : PoolLedger :=
  match moveOf settings race amb event with
  | some move => (l.step ctx move).getD l
  | none => l

theorem tracks_start (settings : Settings) (now : Instant) (jobs : List Job) :
    (start settings.poolSize jobs).Tracks (Race.start settings now jobs) := ⟨rfl, rfl⟩

/-! ## Steps of a race -/

section Steps

variable {settings : Settings} {amb : Ambient} {race next : Race} {acts : List Act}

/-- Everything that one event can make of a race and of its ledger. -/
inductive Follows (settings : Settings) (ctx : RoundContext) (amb : Ambient) (l : PoolLedger)
    (race : Race) : Race.Event → Race → List Act → PoolLedger → Prop where
  /-- Something happens in the pool. -/
  | task {event : PoolEvent} {pool : Pool} {acts : List Act} :
      race.phase ≠ .over → l.pool.step ctx (race.moment amb) event = some (pool, acts) →
      Follows settings ctx amb l race (.pool event) { race with pool } acts (l.afterTask pool acts)
  /-- An outcome is received. -/
  | receives {outcome : Outcome} {pool : Pool} :
      race.phase ≠ .over → l.pool.receive = some (outcome, pool) →
      Follows settings ctx amb l race .receive
        { race with pool, received := race.received ++ [outcome] } []
        { l with pool, received := l.received ++ [outcome] }
  /-- A tick crashes. -/
  | crashes :
      race.phase = .waiting → race.crashesAt settings.pollRatio amb = true →
      Follows settings ctx amb l race .tick race.crash.1 race.crash.2 l.close
  /-- A tick ends the wait, and the jobs that wait are dropped. -/
  | winds :
      race.phase = .waiting →
      Follows settings ctx amb l race .tick (race.wind settings amb) []
        { l with pool := l.pool.discard.2, dropped := l.dropped ++ l.pool.queue }
  /-- A tick goes by. -/
  | waits :
      race.phase = .waiting →
      Follows settings ctx amb l race .tick
        { race with
          ticks := race.ticks + 1
          nextTick := amb.now + settings.connectPoll.nanos } [] l
  /-- Nothing can come any more. -/
  | settles :
      l.pool.isExhausted = true →
      Follows settings ctx amb l race .settle race.close.1 race.close.2 l.close
  /-- The grace period is over. -/
  | expires {limit : Instant} :
      race.phase = .winding limit → limit ≤ amb.now →
      Follows settings ctx amb l race .expire race.close.1 race.close.2 l.close

theorem Tracks.follows {event : Race.Event} (hTracks : l.Tracks race)
    (hStep : race.step settings ctx amb event = some (next, acts)) :
    Follows settings ctx amb l race event next acts (l.follow settings ctx race amb event) := by
  cases Race.stepsTo_of_step hStep with
  | pool hUnder hTask =>
      rw [← hTracks.pool] at hTask
      simp only [follow, moveOf, PoolLedger.step, hTask, Option.getD_some]
      exact .task hUnder hTask
  | receive hUnder hSent =>
      rw [← hTracks.pool] at hSent
      simp only [follow, moveOf, PoolLedger.step, hSent, Option.getD_some]
      exact .receives hUnder hSent
  | crashes hWaiting hCrashes =>
      simp only [follow, moveOf, PoolLedger.step, hCrashes, if_true, Option.getD_some]
      exact .crashes hWaiting hCrashes
  | winds hWaiting hStops hSafe =>
      simp only [follow, moveOf, PoolLedger.step, hStops, hSafe, Bool.false_eq_true, if_true,
        if_false, Option.getD_some]
      exact .winds hWaiting
  | waits hWaiting hGoes hSafe =>
      simp only [follow, moveOf, hGoes, hSafe, Bool.false_eq_true, if_false]
      exact .waits hWaiting
  | settles hExhausted =>
      rw [← hTracks.pool] at hExhausted
      simp only [follow, moveOf, PoolLedger.step, hExhausted, if_true, Option.getD_some]
      exact .settles hExhausted
  | expires hWinding hLimit =>
      simp only [follow, moveOf, PoolLedger.step, Option.getD_some]
      exact .expires hWinding hLimit

/-- What a step of a race leaves of its ledger. -/
structure KeepsUp (ctx : RoundContext) (size : Nat) (jobs : List Job) (l : PoolLedger)
    (acts : List Act) (next : Race) (after : PoolLedger) : Prop where
  reached : Reached ctx size jobs after
  tracks : after.Tracks next
  acts : after.acts = l.acts ++ acts
  closed : next.phase = .over → after.Closed

/-- The move that closes a pool closes the race. -/
theorem Tracks.close {move : PoolMove} (hReached : Reached ctx size jobs l)
    (hTracks : l.Tracks race) (hMove : l.step ctx move = some l.close) :
    KeepsUp ctx size jobs l race.close.2 race.close.1 l.close where
  reached := hReached.step hMove
  tracks :=
    { pool := by
        show l.pool.kill.1.drain.2 = race.pool.kill.1.drain.2
        rw [hTracks.pool]
      received := by
        show l.received ++ l.pool.kill.1.drain.1 = race.received ++ race.pool.kill.1.drain.1
        rw [hTracks.pool, hTracks.received] }
  acts := by
    show l.acts ++ l.pool.kill.2 = l.acts ++ race.pool.kill.2
    rw [hTracks.pool]
  closed _ := closed_close l

/-- Every step of a race is followed by its ledger. -/
theorem Tracks.step {event : Race.Event} (hReached : Reached ctx size jobs l)
    (hTracks : l.Tracks race)
    (hStep : race.step settings ctx amb event = some (next, acts)) :
    KeepsUp ctx size jobs l acts next (l.follow settings ctx race amb event) := by
  have hFollows := hTracks.follows hStep
  generalize l.follow settings ctx race amb event = after at hFollows
  cases hFollows with
  | @task event pool _ hUnder hTask =>
      have hMove : l.step ctx (.task (race.moment amb) event) = some (l.afterTask pool acts) := by
        simp only [PoolLedger.step, hTask]
      exact
        { reached := hReached.step hMove
          tracks := ⟨rfl, hTracks.received⟩
          acts := rfl
          closed := fun hOver => absurd hOver hUnder }
  | @receives outcome pool hUnder hSent =>
      have hMove : l.step ctx .receive =
          some { l with pool, received := l.received ++ [outcome] } := by
        simp only [PoolLedger.step, hSent]
      exact
        { reached := hReached.step hMove
          tracks := ⟨rfl, congrArg (· ++ [outcome]) hTracks.received⟩
          acts := (List.append_nil _).symm
          closed := fun hOver => absurd hOver hUnder }
  | crashes =>
      have hMove : l.step ctx .expire = some l.close := rfl
      have hClose := hTracks.close hReached hMove
      exact
        { reached := hClose.reached
          tracks := ⟨hClose.tracks.pool, hClose.tracks.received⟩
          acts := hClose.acts
          closed := fun _ => closed_close l }
  | winds =>
      have hMove : l.step ctx .shutdown =
          some { l with pool := l.pool.discard.2, dropped := l.dropped ++ l.pool.queue } := rfl
      exact
        { reached := hReached.step hMove
          tracks :=
            { pool := congrArg (fun pool => pool.discard.2) hTracks.pool
              received := hTracks.received }
          acts := (List.append_nil _).symm
          closed := fun hOver => by cases hOver }
  | waits hWaiting =>
      exact
        { reached := hReached
          tracks := ⟨hTracks.pool, hTracks.received⟩
          acts := (List.append_nil _).symm
          closed := fun hOver => by cases hWaiting.symm.trans hOver }
  | settles hExhausted =>
      have hMove : l.step ctx .settle = some l.close := by
        simp only [PoolLedger.step, hExhausted, if_true]
      exact hTracks.close hReached hMove
  | expires =>
      have hMove : l.step ctx .expire = some l.close := rfl
      exact hTracks.close hReached hMove

end Steps

end PoolLedger

end RelayRace
