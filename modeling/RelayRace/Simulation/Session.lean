import RelayRace.Simulation.Subjects
import RelayRace.Simulation.Tally

/-!
# Simulated sessions

A session is a selector in a scripted world, and a list of things that are done
with it one after the other. The selector, its list, its generator and its
statistics last from one step to the next, and each step yields a report of what
happened in it. A step that never ends ends the whole session.
-/

namespace RelayRace.Simulation

/-! ## Steps -/

/-- How a single round is run. -/
structure RoundOptions where
  protect : Bool := false
  /-- Whether the signals are raised from the beginning. -/
  stopped : Bool := false
  aborted : Bool := false
  /-- When they are raised, counted from the beginning of the step. -/
  stopAt : Option Duration := none
  abortAt : Option Duration := none
  /-- Whether a winner is kept open. -/
  keep : Bool := false
  deriving DecidableEq, Repr

/-- How a selector is run. -/
structure RunOptions where
  protect : Bool := false
  stopped : Bool := false
  stopAt : Option Duration := none
  abortAt : Option Duration := none
  /-- How many abort calls are made at that time. -/
  aborts : Nat := 1
  dropAt : Option Duration := none
  /-- When it is run a second time. -/
  secondAt : Option Duration := none
  keep : Bool := false
  deriving DecidableEq, Repr

/-- How a single probe is run. -/
structure ProbeOptions where
  candidate : Candidate
  index : Nat := 0
  protect : Bool := false
  aborted : Bool := false
  abortAt : Option Duration := none
  /-- Whether the outcome is closed, twice, before it is looked at. -/
  release : Bool := false
  keep : Bool := false
  deriving DecidableEq, Repr

/-- How a bare attempt is run. -/
structure ConnectOptions where
  candidate : Candidate
  protocol : Protocol
  protect : Bool := false
  aborted : Bool := false
  deriving DecidableEq, Repr

/-- Something that the owner of a pool does. -/
inductive PoolAction where
  | next (count : Nat)
  | terminate (grace : Duration)
  | shutdown
  | abort
  | sleep (time : Duration)
  deriving DecidableEq, Repr

/-- How a pool is run. -/
structure PoolOptions where
  candidates : List Candidate
  size : Nat
  protect : Bool := false
  aborted : Bool := false
  actions : List PoolAction
  deriving DecidableEq, Repr

/-- A step of a session. -/
inductive Step where
  | round (options : RoundOptions)
  | run (options : RunOptions)
  | abort
  | advance
  /-- The world changes. -/
  | change (world : World → World)
  /-- The protector changes. -/
  | changeProtector (protector : Option Protector)
  | merge (candidates : List Candidate)
  | backoff
  | closeKept
  | probe (options : ProbeOptions)
  | connect (options : ConnectOptions)
  | pool (options : PoolOptions)

/-! ## Results -/

/-- A winner, and how many connections and sub-servers were open with it. -/
structure Pick where
  winner : Winner
  connectionsOpen : Nat
  subServersOpen : Nat
  deriving DecidableEq, Repr

/-- How a run ended. -/
inductive RunEnding where
  | picked (pick : Option Pick)
  | dropped
  | crashed
  deriving DecidableEq, Repr

/-- The result of one thing that the owner of a pool did. -/
inductive PoolResult where
  | outcomes (outcomes : List Outcome)
  | dropped (count : Nat)
  | nothing
  deriving DecidableEq, Repr

/-- What the bare attempt came to. -/
structure Connected where
  failure : Option Failure
  isOpen : Bool
  connectionsOpen : Nat
  subServersOpen : Nat
  openAfter : Bool
  candidate : Candidate
  deriving DecidableEq, Repr

/-- The result of a step. -/
inductive Result where
  | pick (pick : Option Pick)
  | run (ending : RunEnding) (running : Bool)
  | runTwice (first second : Option Pick) (before after : Bool)
  | running (running : Bool)
  | label (label : String)
  | nothing
  | count (count : Nat)
  | duration (duration : Duration)
  | probe (outcome : Outcome) (held : Bool) (pick : Option Pick) (told : Bool)
  | connect (connected : Connected)
  | pool (results : List PoolResult) (selected : Nat) (told : Bool)
  deriving DecidableEq, Repr

/-! ## Sessions -/

/-- A selector in its world, between two steps. -/
structure Session where
  coordinator : Coordinator
  world : World
  params : SessionParams := {}
  calls : Calls := {}
  kept : List Winner := []
  now : Instant := 0
  tally : Tally := {}

/-- What is told after a step. -/
structure Report where
  result : Result
  acts : List Act
  /-- How long the step took. -/
  elapsed : Duration
  /-- The session after the step. -/
  session : Session

namespace Session

/-- The shared part of a play that begins now. -/
def begin (s : Session) : Play := { world := s.world, now := s.now }

/-- The time at which something is due that is counted from now. -/
def timeAfter (s : Session) (after : Duration) : Instant := s.now + after.nanos

/-- The cue that is due after some time, if any. -/
def cue {κ : Type} (s : Session) (after : Option Duration) (kind : κ) : List (Cue κ) :=
  match after with
  | some d => [⟨s.timeAfter d, kind⟩]
  | none => []

/-- Takes over what a play came to. -/
def take (s : Session) (play : Play) : Session :=
  { s with
    world := play.world
    now := play.now
    tally := s.tally.addAll play.acts.reverse }

/-- Adds acts that follow a play. -/
def add (s : Session) (acts : List Act) : Session := { s with tally := s.tally.addAll acts }

/-- A winner as it is shown. -/
def display (s : Session) (winner : Option Winner) : Option Pick :=
  winner.map fun winner =>
    { winner
      connectionsOpen := s.tally.connectionsOpen
      subServersOpen := s.tally.subServersRunning.length }

/-- Keeps a winner or closes it, and tells what is closed. -/
def dispose (s : Session) (keep : Bool) : Option Winner → Session × List Act
  | none => (s, [])
  | some winner =>
      if keep then ({ s with kept := s.kept ++ [winner] }, [])
      else (s.add winner.close, winner.close)

/-- The report of a step that took no time and did nothing. -/
def idle (s : Session) (result : Result) : Report := ⟨result, [], .zero, s⟩

/-- What the probes of a round share, when probes are run by hand. -/
def context (s : Session) (protect : Bool) : RoundContext :=
  Round.contextOf s.coordinator { protect, session := s.params } s.world.scene.1

/-! ## The steps -/

/-- Runs a single round. -/
def round (s : Session) (o : RoundOptions) : Option Report :=
  let run : RoundRun :=
    { coordinator := s.coordinator
      request := { protect := o.protect, session := s.params }
      abort := o.aborted
      stop := o.stopped
      cues := s.cue o.abortAt .raiseAbort ++ s.cue o.stopAt .raiseStop }
  match RoundRun.subject.play s.begin run with
  | none => none
  | some (play, run) =>
      let winner := run.result?.getD none
      let after := { s.take play with coordinator := run.coordinator }
      let pick := after.display winner
      let (after, closing) := after.dispose o.keep winner
      some ⟨.pick pick, play.acts.reverse ++ closing, ⟨play.now - s.now⟩, after⟩

/-- How a loop ended. -/
def endingOf (s : Session) (dropped : Bool) : Option LoopPhase → RunEnding
  | some .crashed => .crashed
  | some (.ended winner) => if dropped then .dropped else .picked (s.display winner)
  | _ => if dropped then .dropped else .picked none

/-- The winner of a loop. -/
def winnerOf : Option LoopPhase → Option Winner
  | some (.ended winner) => winner
  | _ => none

/-- The loop of a run. -/
def loopOf (first : Nat) (run : LoopRun) (place : Nat) : Option LoopPhase :=
  run.phases[first + place]?

/-- Runs the selector, once or twice. -/
def run (s : Session) (o : RunOptions) : Option Report :=
  let first := s.calls.loops.length
  let state : LoopRun :=
    { coordinator := s.coordinator
      request := { protect := o.protect, session := s.params }
      calls := { s.calls with calls := [{ kind := .run }] }
      phases := List.replicate first (.ended none)
      stop := o.stopped
      cues :=
        (List.replicate (max o.aborts 1) (s.cue o.abortAt .callAbort)).flatten ++
          s.cue o.stopAt .raiseStop ++ s.cue o.dropAt .drop ++ s.cue o.secondAt .callRun }
  match LoopRun.subject.play s.begin state with
  | none => none
  | some (play, state) =>
      let after := { s.take play with coordinator := state.coordinator, calls := state.calls }
      let dropped := state.calls.calls.any fun call => call.stage == .dropped
      let one := loopOf first state 0
      let two := loopOf first state 1
      let result : Result :=
        if o.secondAt.isSome then
          .runTwice (after.display (winnerOf one)) (after.display (winnerOf two))
            state.runningBefore state.calls.running
        else .run (after.endingOf dropped one) state.calls.running
      let (after, closing) := after.dispose o.keep (winnerOf one)
      let (after, more) := after.dispose o.keep (winnerOf two)
      some ⟨result, play.acts.reverse ++ closing ++ more, ⟨play.now - s.now⟩, after⟩

/-- Aborts the selector, on which nobody else calls. -/
def abort (s : Session) : Report :=
  s.idle (.running s.calls.running)

/-- Moves on to the next targets. -/
def advance (s : Session) : Report :=
  let (coordinator, acts) := RunLoop.rotate s.coordinator
  ⟨.label coordinator.targets.label, acts, .zero, { s with coordinator }⟩

/-- Merges entries into the list. -/
def merge (s : Session) (candidates : List Candidate) : Report :=
  let (list, added) := s.coordinator.list.merge candidates
  { s with coordinator := { s.coordinator with list } }.idle (.count added)

/-- Draws a rest. -/
def backoff (s : Session) : Report :=
  let (rest, generator) := s.coordinator.settings.backoff s.coordinator.generator
  { s with coordinator := { s.coordinator with generator } }.idle (.duration rest)

/-- Closes the winners that were kept. -/
def closeKept (s : Session) : Report :=
  let acts := s.kept.flatMap Winner.close
  ⟨.count s.kept.length, acts, .zero, { s.add acts with kept := [] }⟩

/-- Runs a single probe. -/
def probe (s : Session) (o : ProbeOptions) : Option Report :=
  let state : PoolRun :=
    { ctx := s.context o.protect
      pool := Pool.start 1 [⟨o.index, o.candidate⟩]
      aborted := o.aborted
      wait := .outcomes 1
      cues := s.cue o.abortAt () }
  match PoolRun.subject.play s.begin state with
  | none => none
  | some (play, state) =>
      match state.received with
      | [] => none
      | outcome :: _ =>
          let after := s.take play
          let (held, released) :=
            if o.release then
              let (once, acts) := outcome.release
              let (twice, more) := once.release
              (twice, acts ++ more)
            else (outcome, [])
          let (winner, left) := held.select
          let after := after.add (released ++ left)
          let pick := after.display winner
          let (after, closing) := after.dispose o.keep winner
          some ⟨.probe outcome held.held.isOpen pick state.pool.told,
            play.acts.reverse ++ released ++ left ++ closing, ⟨play.now - s.now⟩, after⟩

/-- Runs a bare attempt. -/
def connect (s : Session) (o : ConnectOptions) : Option Report :=
  let ctx := s.context o.protect
  let a : Attempt :=
    { index := 0
      dispatched := o.candidate
      candidate := o.candidate
      protocol := o.protocol
      began := s.now
      due := s.now }
  let (progress, acts) := a.start ctx ⟨s.now, o.aborted⟩
  let state : AttemptRun := { ctx, aborted := o.aborted, progress }
  match AttemptRun.subject.play (s.begin.perform acts) state with
  | none => none
  | some (play, state) =>
      let (a, failure) : Attempt × Option Failure :=
        match state.progress with
        | .broken a failure => (a, some failure)
        | .connected a | .waiting a => (a, none)
      let before := s.take play
      let (left, closing) := a.held.release a.index
      let after := before.add closing
      let connected : Connected :=
        { failure
          isOpen := a.held.isOpen
          connectionsOpen := before.tally.connectionsOpen
          subServersOpen := before.tally.subServersRunning.length
          openAfter := left.isOpen
          candidate := a.candidate }
      some ⟨.connect connected, play.acts.reverse ++ closing, ⟨play.now - s.now⟩, after⟩

/-- Waits for something in a pool and tells which outcomes came in. -/
def await (play : Play) (state : PoolRun) (wait : PoolWait) :
    Option (Play × PoolRun × List Outcome) :=
  match PoolRun.subject.play play { state with wait, idle := false, received := [] } with
  | some (play, state) => some (play, state, state.received)
  | none => none

/-- One thing that the owner of a pool does. -/
def poolAction (play : Play) (state : PoolRun) (action : PoolAction) :
    Option (Play × PoolRun × PoolResult) :=
  match action with
  | .next count =>
      (await play state (.outcomes count)).map fun (play, state, got) =>
        (play, state, .outcomes got)
  | .terminate grace =>
      (await play state (.ending (play.now + grace.nanos))).map fun (play, state, got) =>
        (play, state, .outcomes got)
  | .shutdown =>
      let (count, pool) := state.pool.discard
      some (play, { state with pool }, .dropped count)
  | .abort => some (play, { state with aborted := true }, .nothing)
  | .sleep time =>
      (await play state (.time (play.now + time.nanos))).map fun (play, state, _) =>
        (play, state, .nothing)

/-- Everything that the owner of a pool does. -/
def poolActions (play : Play) (state : PoolRun) :
    List PoolAction → Option (Play × PoolRun × List PoolResult)
  | [] => some (play, state, [])
  | action :: rest =>
      match poolAction play state action with
      | none => none
      | some (play, state, result) =>
          match poolActions play state rest with
          | none => none
          | some (play, state, results) => some (play, state, result :: results)

/-- Numbers candidates as jobs of a pool. -/
def jobsOf (candidates : List Candidate) : List Job := numberFrom 0 candidates

/-- The outcomes among some results. -/
def outcomesOf (results : List PoolResult) : List Outcome :=
  results.flatMap fun
    | .outcomes outcomes => outcomes
    | .dropped _ | .nothing => []

/-- Runs a pool. When its owner is done, the pool is given up: what is left of it
is ended by force, and every outcome that would be a winner is counted and
closed. -/
def pool (s : Session) (o : PoolOptions) : Option Report :=
  let state : PoolRun :=
    { ctx := s.context o.protect
      pool := Pool.start o.size (jobsOf o.candidates)
      aborted := o.aborted }
  match poolActions s.begin state o.actions with
  | none => none
  | some (play, state, results) =>
      let outcomes := outcomesOf results
      let selected := outcomes.filterMap fun o => o.select.1
      let left := outcomes.flatMap fun o => o.select.2
      let (killed, killing) := state.pool.kill
      let dropped := Conclusion.releaseAll killed.channel
      let closing := left ++ selected.flatMap Winner.close ++ killing ++ dropped
      some ⟨.pool results selected.length state.pool.told,
        play.acts.reverse ++ closing, ⟨play.now - s.now⟩, (s.take play).add closing⟩

/-- One step; none when it never ends. -/
def step (s : Session) : Step → Option Report
  | .round o => s.round o
  | .run o => s.run o
  | .abort => some s.abort
  | .advance => some s.advance
  | .change change => some ({ s with world := change s.world }.idle .nothing)
  | .changeProtector protector =>
      some ({ s with coordinator := { s.coordinator with protector } }.idle .nothing)
  | .merge candidates => some (s.merge candidates)
  | .backoff => some s.backoff
  | .closeKept => some s.closeKept
  | .probe o => s.probe o
  | .connect o => s.connect o
  | .pool o => s.pool o

/-- All steps of a session; none when one of them never ends. -/
def playAll (s : Session) : List Step → Option (List Report)
  | [] => some []
  | step :: rest =>
      match s.step step with
      | none => none
      | some report => (report.session.playAll rest).map (report :: ·)

end Session

end RelayRace.Simulation
