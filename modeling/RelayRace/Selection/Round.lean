import RelayRace.Selection.Backoff
import RelayRace.Selection.Conclusion
import RelayRace.Selection.Dispatch
import RelayRace.Selection.Race
import RelayRace.Sleep
import RelayRace.Statistics

/-!
# Rounds

A round waits until there is a network, reads the stored list, lets the probes
of the eligible entries race, and concludes. Until there is a network nothing
happens but that the environment is asked again and again, with sleeps between
that an abort cuts short.

Every round ends in exactly one way, and is recorded in the statistics when it
does: without a network, without anyone to probe, or with the conclusion of its
race.
-/

namespace RelayRace

/-! ## What a round works on -/

/-- What lasts from one round to the next. -/
structure Coordinator where
  settings : Settings
  targets : TargetSequence
  list : ServerList
  generator : Generator
  protector : Option Protector := none
  statistics : Statistics := {}

/-- What a selection is asked for. -/
structure SelectionRequest where
  /-- Whether sockets that leave this host have to be protected. -/
  protect : Bool := false
  session : SessionParams := {}
  deriving DecidableEq, Repr

/-- The protector that a request is served with: the one there is, if the
request asks for protection. -/
def Coordinator.protectorFor (c : Coordinator) (request : SelectionRequest) : Option Protector :=
  if request.protect then c.protector else none

/-- What the environment answers when a round asks it. -/
structure Scene where
  /-- Whether there is a network. -/
  online : Bool := true
  /-- The region that is asked for. -/
  region : Option String := none
  /-- Whether asking for the region crashes. -/
  regionCrashes : Bool := false
  /-- The proxy that attempts go through. -/
  proxy : Option ProxySettings := none
  deriving DecidableEq, Repr

/-! ## A round under way -/

/-- What a round is doing. -/
inductive RoundPhase where
  /-- It is about to ask whether there is a network. -/
  | asking
  /-- It sleeps before it asks again. -/
  | sleeping (sleep : Sleep)
  /-- Its probes are out. -/
  | racing (ctx : RoundContext) (race : Race)
  /-- It is over. -/
  | ended (winner : Option Winner)
  /-- It crashed. -/
  | crashed
  deriving DecidableEq, Repr

/-- A round under way. -/
structure Round where
  phase : RoundPhase := .asking
  /-- Whether it has told that it waits for the network. -/
  awaitsTold : Bool := false
  /-- The entry that stood first in the list. -/
  first : Option Candidate := none
  deriving DecidableEq, Repr

/-- What can happen in a round. -/
inductive RoundEvent where
  /-- The environment is asked, and answers. -/
  | look (scene : Scene)
  /-- The sleep is over, or the signal is looked at in it. -/
  | wake
  /-- Something happens in the race. -/
  | race (event : Race.Event)

namespace Round

/-! ## Endings -/

/-- Records a round that is over, and ends it. -/
def finish (c : Coordinator) (round : Round) (summary : Summary) (winner : Option Winner) :
    Coordinator × Round :=
  let summary :=
    match winner with
    | some w =>
        { summary with
          winner := some w.candidate.ipAddress
          protocol := some w.protocol
          responseTime := some w.responseTime }
    | none => summary
  ({ c with statistics := c.statistics.record summary }, { round with phase := .ended winner })

/-- Ends a round that found no network. -/
def giveUp (c : Coordinator) (round : Round) (amb : Ambient) : Coordinator × Round :=
  finish c round { aborted := amb.abort } none

/-- Concludes a round from the outcomes of its race. -/
def conclude (c : Coordinator) (round : Round) (amb : Ambient) (dispatched : Nat)
    (outcomes : List Outcome) : Coordinator × Round × List Act :=
  let conclusion := Conclusion.of c.list c.generator round.first amb.abort outcomes
  let summary : Summary :=
    { dispatched
      completed := outcomes.length
      responded := (outcomes.filter Outcome.responded).length
      aborted := amb.abort }
  let c := { c with list := conclusion.list, generator := conclusion.generator }
  let (c, round) := finish c round summary conclusion.winner
  (c, round, conclusion.acts)

/-! ## Sending the probes out -/

/-- The lines that tell how a round is set up. -/
def setUpNotices (scene : Scene) : List Act :=
  [.noted (.regionSelected scene.region), .noted (.proxyChaining scene.proxy.isSome)] ++
    match scene.proxy with
    | some proxy => [.noted (.viaProxy proxy.host proxy.port)]
    | none => []

/-- What the probes of a round share. -/
def contextOf (c : Coordinator) (request : SelectionRequest) (scene : Scene) : RoundContext where
  targets := c.targets.current
  protector := c.protectorFor request
  proxy := scene.proxy
  session := request.session
  poll := c.settings.connectPoll

/-- The filter of a round. -/
def filterOf (c : Coordinator) (scene : Scene) : Filter where
  sufficient := c.settings.sufficient
  region := scene.region
  targets := c.targets.current

/-- Reads the list and sends the probes out. The list is shuffled before the
environment is asked for the region. -/
def dispatch (c : Coordinator) (request : SelectionRequest) (amb : Ambient) (round : Round)
    (scene : Scene) : Coordinator × Round × List Act :=
  let (ordered, generator) := probeOrder c.generator c.settings.poolSize c.list.entries
  let c := { c with generator }
  let round := { round with first := c.list.entries.head? }
  if scene.regionCrashes then
    (c, { round with phase := .crashed }, [.refreshedResolvers, .readList])
  else
    let acts := [.refreshedResolvers, .readList] ++ setUpNotices scene
    match jobs (filterOf c scene) ordered with
    | [] =>
        let (c, round, more) := conclude c round amb 0 []
        (c, round, acts ++ more)
    | job :: rest =>
        let race := Race.start c.settings amb.now (job :: rest)
        (c, { round with phase := .racing (contextOf c request scene) race }, acts)

/-! ## Waiting for the network -/

/-- The line that tells that a round waits, unless it was told. -/
def awaitsNotice (round : Round) : List Act :=
  if round.awaitsTold then [] else [.noted .awaitingConnectivity]

/-- Goes on after a look at the signal in a sleep. -/
def afterLook (c : Coordinator) (round : Round) (amb : Ambient) :
    Sleep.Look → Coordinator × Round
  | .aborted => giveUp c round amb
  | .rested => (c, { round with phase := .asking })
  | .asleep sleep => (c, { round with phase := .sleeping sleep })

/-- Asks whether there is a network. -/
def look (c : Coordinator) (request : SelectionRequest) (amb : Ambient) (round : Round)
    (scene : Scene) : Coordinator × Round × List Act :=
  if scene.online then
    if amb.abort then
      let (c, round) := giveUp c round amb
      (c, round, [.checkedConnectivity])
    else
      let (c, round, acts) := dispatch c request amb round scene
      (c, round, .checkedConnectivity :: acts)
  else
    let told := { round with awaitsTold := true }
    let (c, after) :=
      afterLook c told amb
        (Sleep.start amb.now c.settings.connectivityPoll c.settings.connectPoll amb.abort)
    (c, after, .checkedConnectivity :: round.awaitsNotice)

/-! ## All events -/

/-- Goes on after an event of the race: a race that is over is concluded, and one
that crashed takes the round with it, which closes what it has received. -/
def afterRace (c : Coordinator) (round : Round) (amb : Ambient) (ctx : RoundContext)
    (race : Race) (acts : List Act) : Coordinator × Round × List Act :=
  match race.phase with
  | .over =>
      if race.crashed then
        (c, { round with phase := .crashed }, acts ++ Conclusion.releaseAll race.received)
      else
        let (c, round, more) := conclude c round amb race.dispatched race.received
        (c, round, acts ++ more)
  | .waiting | .winding _ => (c, { round with phase := .racing ctx race }, acts)

/-- One event; none when it cannot happen now. -/
def step (c : Coordinator) (request : SelectionRequest) (amb : Ambient) (round : Round)
    (event : RoundEvent) : Option (Coordinator × Round × List Act) :=
  match round.phase, event with
  | .asking, .look scene => some (look c request amb round scene)
  | .sleeping sleep, .wake =>
      if sleep.wake ≤ amb.now then
        let (c, round) := afterLook c round amb (sleep.resume amb.now amb.abort)
        some (c, round, [])
      else none
  | .racing ctx race, .race event =>
      match race.step c.settings ctx amb event with
      | some (race, acts) => some (afterRace c round amb ctx race acts)
      | none => none
  | _, _ => none

end Round

end RelayRace
