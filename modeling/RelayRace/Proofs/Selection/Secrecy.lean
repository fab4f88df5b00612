import RelayRace.Proofs.Probe.Rekeyed
import RelayRace.Proofs.Proxy.Secrecy
import RelayRace.Proofs.Schedule
import RelayRace.Proofs.Selection.StoppedRound

/-!
# Rounds with other credentials

A round that finds its proxy with other credentials goes the same way: every event
of a pool, a race and a round commutes with giving the proxy other credentials
(`Pool.step_rekeyed`, `Race.step_rekeyed`, `Round.step_rekeyed`), and so does a whole
schedule (`RoundTrace.play_rekeyed`).  The two rounds come to the same, log the same
and leave the same behind; what they ask the proxy for a tunnel with is all that
differs.
-/

namespace RelayRace

variable (credentials : Credentials)

/-! ## Acts that ask for nothing -/

/-- Acts that ask for nothing send no credentials. -/
theorem map_rekeyed_of_inquiries {acts : List Act} (hNone : inquiries acts = []) :
    acts.map (Act.rekeyed credentials) = acts := by
  have hSame : ∀ act ∈ acts, act.rekeyed credentials = act := by
    intro act hMem
    have hAct := List.filterMap_eq_nil_iff.mp hNone act hMem
    cases act with
    | asked owner inquiry => cases hAct
    | _ => rfl
  rw [List.map_congr_left hSame, List.map_id']

theorem map_rekeyedActs_of_inquiries {α : Type} {step : Option (α × List Act)}
    (hNone : ∀ result ∈ step, inquiries result.2 = []) :
    step.map (rekeyedActs credentials) = step := by
  cases step with
  | none => rfl
  | some result =>
      rw [Option.map_some, rekeyedActs, map_rekeyed_of_inquiries credentials (hNone result rfl)]

/-! ## Pools and races -/

namespace Pool

variable (ctx : RoundContext) (m : Moment) (pool : Pool)

theorem take_rekeyed :
    pool.take (ctx.rekeyed credentials) m =
      (pool.take ctx m).map (rekeyedActs credentials) := by
  unfold take
  split
  · rfl
  · split
    · rfl
    · next job rest _ =>
      simp only [Worker.start_rekeyed]
      cases hStanding : (Worker.start ctx m pool.told job).standing with
      | running a => simp only [Turn.rekeyed, hStanding]; rfl
      | ended outcome => simp only [Turn.rekeyed, hStanding]; rfl

theorem apply_rekeyed (index : Nat) (turn : Turn) :
    pool.apply index (turn.rekeyed credentials) =
      rekeyedActs credentials (pool.apply index turn) := by
  rcases turn with ⟨_ | _, told, acts⟩ <;> rfl

theorem step_rekeyed (event : PoolEvent) :
    pool.step (ctx.rekeyed credentials) m event =
      (pool.step ctx m event).map (rekeyedActs credentials) := by
  cases event with
  | take => exact take_rekeyed credentials ctx m pool
  | poll index =>
      simp only [step]
      split
      · split
        · rw [Worker.poll_rekeyed, apply_rekeyed, Option.map_some]
        · rfl
      · rfl
  | answer index given =>
      simp only [step]
      split
      · rw [Worker.answer_rekeyed, apply_rekeyed, Option.map_some]
      · rfl
  | crash index =>
      simp only [step]
      split
      · rw [Option.map_some, ← apply_rekeyed, ← Worker.crash_rekeyed]
      · rfl

end Pool

namespace Race

variable (settings : Settings) (ctx : RoundContext) (amb : Ambient) (race : Race)

theorem inquiries_close : inquiries race.close.2 = [] :=
  inquiries_of_probeActs (race.pool.probeActs_kill true)

/-- What happens in a race outside its pool asks for nothing. -/
theorem inquiries_tick {result : Race × List Act} (hTick : race.tick settings amb = some result) :
    inquiries result.2 = [] := by
  unfold tick at hTick
  split at hTick
  · split at hTick
    · cases hTick
    · split at hTick
      · cases hTick
        exact race.inquiries_close
      · split at hTick <;> cases hTick <;> rfl
  · cases hTick
  · cases hTick

theorem inquiries_settle {result : Race × List Act} (hSettle : race.settle = some result) :
    inquiries result.2 = [] := by
  unfold settle at hSettle
  split at hSettle
  · split at hSettle
    · cases hSettle
      exact race.inquiries_close
    · cases hSettle
  · cases hSettle
  · cases hSettle

theorem inquiries_expire {result : Race × List Act} (hExpire : race.expire amb = some result) :
    inquiries result.2 = [] := by
  unfold expire at hExpire
  split at hExpire
  · split at hExpire
    · cases hExpire
      exact race.inquiries_close
    · cases hExpire
  · cases hExpire
  · cases hExpire

theorem step_rekeyed (event : Event) :
    race.step settings (ctx.rekeyed credentials) amb event =
      (race.step settings ctx amb event).map (rekeyedActs credentials) := by
  cases event with
  | pool event =>
      simp only [step, Pool.step_rekeyed]
      cases race.pool.step ctx (race.moment amb) event <;> cases race.phase <;> rfl
  | receive =>
      simp only [step]
      cases race.receive <;> rfl
  | tick =>
      exact (map_rekeyedActs_of_inquiries credentials
        fun _ hTick => race.inquiries_tick settings amb hTick).symm
  | settle =>
      exact (map_rekeyedActs_of_inquiries credentials
        fun _ hSettle => race.inquiries_settle hSettle).symm
  | expire =>
      exact (map_rekeyedActs_of_inquiries credentials
        fun _ hExpire => race.inquiries_expire amb hExpire).symm

end Race

/-! ## Rounds -/

/-- The same scene with other credentials for its proxy. -/
def Scene.rekeyed (scene : Scene) : Scene :=
  { scene with proxy := scene.proxy.map (ProxySettings.rekeyed credentials) }

/-- The same event; a scene that is found has other credentials. -/
def RoundEvent.rekeyed : RoundEvent → RoundEvent
  | .look scene => .look (scene.rekeyed credentials)
  | .wake => .wake
  | .race event => .race event

/-- The same phase; a race goes on with other credentials. -/
def RoundPhase.rekeyed : RoundPhase → RoundPhase
  | .racing ctx race => .racing (ctx.rekeyed credentials) race
  | phase => phase

/-- The same round with other credentials. -/
def Round.rekeyed (round : Round) : Round :=
  { round with phase := round.phase.rekeyed credentials }

namespace Round

/-- What came of an event of a round, with other credentials. -/
def rekeyedStep (step : Coordinator × Round × List Act) : Coordinator × Round × List Act :=
  (step.1, step.2.1.rekeyed credentials, step.2.2.map (Act.rekeyed credentials))

variable (c : Coordinator) (request : SelectionRequest) (amb : Ambient) (round : Round)

theorem setUpNotices_rekeyed (scene : Scene) :
    setUpNotices (scene.rekeyed credentials) = setUpNotices scene := by
  simp only [setUpNotices, Scene.rekeyed]
  cases scene.proxy <;> rfl

theorem conclude_rekeyed (dispatched : Nat) (outcomes : List Outcome) :
    conclude c (round.rekeyed credentials) amb dispatched outcomes =
      rekeyedStep credentials (conclude c round amb dispatched outcomes) := by
  have hActs := map_rekeyed_of_inquiries credentials
    (Conclusion.inquiries_of c.list c.generator round.first amb.abort outcomes)
  simp only [rekeyedStep, conclude, hActs]
  rfl

theorem dispatch_rekeyed (scene : Scene) :
    dispatch c request amb (round.rekeyed credentials) (scene.rekeyed credentials) =
      rekeyedStep credentials (dispatch c request amb round scene) := by
  have hNotices := map_rekeyed_of_inquiries credentials (inquiries_setUp scene)
  have hFilter : ∀ c : Coordinator, filterOf c (scene.rekeyed credentials) = filterOf c scene :=
    fun _ => rfl
  simp only [dispatch, setUpNotices_rekeyed, hFilter]
  rw [show (scene.rekeyed credentials).regionCrashes = scene.regionCrashes from rfl]
  split
  · rfl
  · split
    · rw [show { round.rekeyed credentials with first := c.list.entries.head? } =
        Round.rekeyed credentials { round with first := c.list.entries.head? } from rfl,
        conclude_rekeyed]
      simp only [rekeyedStep, List.map_append, hNotices]
      rfl
    · simp only [rekeyedStep, List.map_append, hNotices]
      rfl

theorem afterLook_rekeyed (look : Sleep.Look) :
    afterLook c (round.rekeyed credentials) amb look =
      ((afterLook c round amb look).1, (afterLook c round amb look).2.rekeyed credentials) := by
  cases look <;> rfl

theorem look_rekeyed (scene : Scene) :
    look c request amb (round.rekeyed credentials) (scene.rekeyed credentials) =
      rekeyedStep credentials (look c request amb round scene) := by
  unfold look
  rw [show (scene.rekeyed credentials).online = scene.online from rfl]
  split
  · split
    · rfl
    · rw [dispatch_rekeyed]
      rfl
  · rw [show { round.rekeyed credentials with awaitsTold := true } =
      Round.rekeyed credentials { round with awaitsTold := true } from rfl]
    simp only [afterLook_rekeyed, rekeyedStep, List.map_cons]
    rw [show (round.rekeyed credentials).awaitsNotice = round.awaitsNotice from rfl]
    unfold awaitsNotice
    split <;> rfl

theorem afterRace_rekeyed (ctx : RoundContext) (race : Race) (acts : List Act) :
    afterRace c (round.rekeyed credentials) amb (ctx.rekeyed credentials) race
        (acts.map (Act.rekeyed credentials)) =
      rekeyedStep credentials (afterRace c round amb ctx race acts) := by
  have hReleased := map_rekeyed_of_inquiries credentials
    (Conclusion.inquiries_releaseAll race.received)
  unfold afterRace
  split
  · split
    · simp only [rekeyedStep, List.map_append, hReleased]
      rfl
    · rw [conclude_rekeyed]
      simp only [rekeyedStep, List.map_append]
  · rfl
  · rfl

theorem step_rekeyed (event : RoundEvent) :
    step c request amb (round.rekeyed credentials) (event.rekeyed credentials) =
      (step c request amb round event).map (rekeyedStep credentials) := by
  rcases round with ⟨phase, awaitsTold, first⟩
  cases phase with
  | asking =>
      cases event with
      | look scene =>
          exact congrArg some
            (look_rekeyed credentials c request amb ⟨.asking, awaitsTold, first⟩ scene)
      | wake | race => rfl
  | sleeping sleep =>
      cases event with
      | wake =>
          simp only [step, rekeyed, RoundEvent.rekeyed, RoundPhase.rekeyed]
          split
          · cases sleep.resume amb.now amb.abort <;> rfl
          · rfl
      | look | race => rfl
  | racing ctx race =>
      cases event with
      | race event =>
          have hRace := race.step_rekeyed credentials c.settings ctx amb event
          simp only [step, rekeyed, RoundEvent.rekeyed, RoundPhase.rekeyed, hRace]
          cases race.step c.settings ctx amb event with
          | none => rfl
          | some result =>
              exact congrArg some (afterRace_rekeyed credentials c amb
                ⟨.racing ctx race, awaitsTold, first⟩ ctx result.1 result.2)
      | look | wake => rfl
  | ended | crashed => cases event <;> rfl

/-- What its race has received is the same. -/
theorem collected_rekeyed (event : RoundEvent) :
    collected c amb (round.rekeyed credentials) (event.rekeyed credentials) =
      collected c amb round event := by
  rcases round with ⟨phase, awaitsTold, first⟩
  cases event with
  | look | wake => rfl
  | race event =>
      cases phase with
      | racing ctx race =>
          have hRace := race.step_rekeyed credentials c.settings ctx amb event
          simp only [collected, rekeyed, RoundEvent.rekeyed, RoundPhase.rekeyed, hRace]
          cases race.step c.settings ctx amb event <;> rfl
      | asking | sleeping | ended | crashed => rfl

end Round

/-! ## Whole rounds -/

namespace RoundTrace

/-- The same trace with other credentials: those of a race under way, and those that
were sent. -/
def rekeyed (t : RoundTrace) : RoundTrace :=
  { t with
    round := t.round.rekeyed credentials
    acts := t.acts.map (Act.rekeyed credentials) }

variable (request : SelectionRequest)

theorem step_rekeyed (t : RoundTrace) (event : Ambient × RoundEvent) :
    step request (t.rekeyed credentials) (event.1, event.2.rekeyed credentials) =
      (step request t event).map (rekeyed credentials) := by
  have hRound := t.round.step_rekeyed credentials t.coordinator request event.1 event.2
  have hCollected := t.round.collected_rekeyed credentials t.coordinator event.1 event.2
  simp only [step]
  rw [show (t.rekeyed credentials).coordinator = t.coordinator from rfl,
    show (t.rekeyed credentials).round = t.round.rekeyed credentials from rfl, hRound, hCollected]
  cases t.round.step t.coordinator request event.1 event.2 with
  | none => rfl
  | some result =>
      simp only [Option.map_some, Round.rekeyedStep, rekeyed, List.map_append]

/-- A round in which the proxy has other credentials is the same round. -/
theorem play_rekeyed (c : Coordinator) (schedule : List (Ambient × RoundEvent)) :
    (start c).play request (schedule.map fun event => (event.1, event.2.rekeyed credentials)) =
      ((start c).play request schedule).map (rekeyed credentials) :=
  playSchedule_map (step_rekeyed credentials request) schedule (start c)

end RoundTrace

/-! ## Two pairs of credentials -/

/-- Two values that read the same in every diagnostic. -/
structure Text.Shown.ReadsAs (value other : Text.Shown) : Prop where
  inline : value.inline = other.inline
  indented : ∀ depth, value.indented depth = other.indented depth

/-- What two pairs of credentials for one proxy make no difference to, beginning with
an exchange on this wire. -/
structure Undisclosed (wire : Proxy.Wire) (host : String) (port : UInt16)
    (mine theirs : Credentials) : Prop where
  /-- The exchange comes to the same, with the same words if it fails. -/
  result : (Proxy.openTunnel wire host port (some theirs)).1 =
    (Proxy.openTunnel wire host port (some mine)).1
  /-- It leaves the same bytes unread. -/
  unread : (Proxy.openTunnel wire host port (some theirs)).2.unread =
    (Proxy.openTunnel wire host port (some mine)).2.unread
  /-- All that differs between the wires afterwards is the request that went out. -/
  sent : (Proxy.openTunnel wire host port (some theirs)).2 =
    (Proxy.openTunnel wire host port (some mine)).2.carrying
      (wire.written ++ Text.Utf8.encode (Proxy.connectRequest host port (some theirs)))
  /-- A failure, of the exchange or any other, is told in the same lines and raises the
  flag of the round alike. -/
  reported : ∀ (ctx : RoundContext) (proxy : ProxySettings), ctx.proxy = some proxy →
    proxy.credentials = some mine → ∀ (told : Bool) (address : String) (failure : Failure),
      RoundContext.report { ctx with proxy := some { proxy with credentials := some theirs } }
        told address failure = ctx.report told address failure
  /-- From the same answers a whole round does the same and comes to the same, but for
  the credentials with which it asks for tunnels. -/
  rounds : ∀ (request : SelectionRequest) (c : Coordinator)
    (schedule : List (Ambient × RoundEvent)),
      (RoundTrace.start c).play request
          (schedule.map fun event => (event.1, event.2.rekeyed theirs)) =
        ((RoundTrace.start c).play request
          (schedule.map fun event => (event.1, event.2.rekeyed mine))).map
            (RoundTrace.rekeyed theirs)
  /-- The log of such a round is the same to the word. -/
  logged : ∀ t : RoundTrace, notices (t.rekeyed theirs).acts = notices t.acts
  /-- Diagnostics do not show the password. -/
  shown : theirs.username = mine.username →
    theirs.shown.ReadsAs mine.shown ∧ ∀ proxyHost proxyPort,
      (ProxySettings.mk proxyHost proxyPort (some theirs)).shown.ReadsAs
        (ProxySettings.mk proxyHost proxyPort (some mine)).shown

/-- Giving other credentials twice is giving the last ones. -/
theorem RoundEvent.rekeyed_rekeyed (mine theirs : Credentials) (event : RoundEvent) :
    (event.rekeyed mine).rekeyed theirs = event.rekeyed theirs := by
  cases event with
  | wake | race => rfl
  | look scene =>
      rcases scene with ⟨online, region, regionCrashes, proxy⟩
      rcases proxy with _ | ⟨host, port, _ | old⟩ <;> rfl

/-- Secrets influence nothing but the bytes that the proxy is sent: whatever the
answer, however it comes in, and whichever of two pairs of credentials goes out with
the request, the exchange, the reports, the rounds and the diagnostics are the same. -/
theorem secrets_reach_only_the_proxy {wire : Proxy.Wire} (hTakes : wire.TakesAll) (host : String)
    (port : UInt16) (mine theirs : Credentials) : Undisclosed wire host port mine theirs := by
  have hExchange := Proxy.openTunnel_eq_carrying hTakes host port (some mine) (some theirs)
  constructor
  case result => rw [hExchange]
  case unread => rw [hExchange, Proxy.Wire.unread_carrying]
  case sent => rw [hExchange]
  case reported =>
    intro ctx proxy hProxy hCredentials told address failure
    have hContext : { ctx with proxy := some { proxy with credentials := some theirs } } =
        ctx.rekeyed theirs := by
      simp only [RoundContext.rekeyed, hProxy, Option.map_some, ProxySettings.rekeyed, hCredentials]
    rw [hContext]
    exact ctx.report_rekeyed theirs told address failure
  case rounds =>
    intro request c schedule
    rw [← RoundTrace.play_rekeyed, List.map_map]
    simp only [Function.comp_def, RoundEvent.rekeyed_rekeyed]
  case logged => exact fun t => notices_map_rekeyed theirs t.acts
  case shown =>
    intro hName
    refine ⟨?_, fun proxyHost proxyPort => ?_⟩
    · rw [Credentials.shown_congr hName]
      exact ⟨rfl, fun _ => rfl⟩
    · rw [ProxySettings.shown_congr hName]
      exact ⟨rfl, fun _ => rfl⟩

namespace Proxy.Sample

open Text

/-- An answer that asks for other credentials. -/
def unauthenticated : List UInt8 := Utf8.encode "HTTP/1.1 407 Proxy Authentication Required\r\n\r\n"

/-- What it is told as. -/
def refused : Failure :=
  .proxyTunnel ("proxy refused CONNECT to relay.example:22: " ++
    "HTTP/1.1 407 Proxy Authentication Required")

/-- A wire that brings in that answer in two cuts, with more behind it, and takes five
bytes with one write. -/
def reluctant : Wire where
  incoming :=
    [.data (unauthenticated.take 20), .data (unauthenticated.drop 20 ++ Utf8.encode "bye")]
  heldOpen := true
  writeMax := some 5

def rightPassword : Credentials := ⟨"ann", "open sesame"⟩

def wrongPassword : Credentials := ⟨"ann", "open \"barley\"\r\n\r\n"⟩

/-- The proxy, with the credentials that it is asked with. -/
def proxyWith (credentials : Credentials) : ProxySettings :=
  ⟨"proxy.example", 3128, some credentials⟩

end Proxy.Sample

/-- Another password, with line ends in it, is refused with the same words, told in
the same line and shown in the same way. -/
theorem refused_alike_with_another_password :
    (Proxy.openTunnel Proxy.Sample.reluctant "relay.example" 22
        (some Proxy.Sample.wrongPassword)).1 = .finished (.error Proxy.Sample.refused) ∧
      (Proxy.openTunnel Proxy.Sample.reluctant "relay.example" 22
        (some Proxy.Sample.wrongPassword)).2.unread = Text.Utf8.encode "bye" ∧
      RoundContext.report
          { targets := [], proxy := some (Proxy.Sample.proxyWith Proxy.Sample.wrongPassword) }
          false "relay.example" Proxy.Sample.refused =
        ([.proxyConnectError Proxy.Sample.refused], true) ∧
      (Proxy.Sample.proxyWith Proxy.Sample.wrongPassword).shown.inline =
        (Proxy.Sample.proxyWith Proxy.Sample.rightPassword).shown.inline := by
  have hTakes : Proxy.Sample.reluctant.TakesAll := ⟨rfl, by decide⟩
  have hSame := secrets_reach_only_the_proxy hTakes "relay.example" 22 Proxy.Sample.rightPassword
    Proxy.Sample.wrongPassword
  have hComing : Proxy.Sample.reluctant.events =
      Proxy.Sample.unauthenticated.map .ok ++ (Text.Utf8.encode "bye").map .ok := rfl
  have hHead : Proxy.IsHead Proxy.Sample.unauthenticated Proxy.Sample.unauthenticated.length :=
    ⟨by decide +kernel, by decide +kernel⟩
  have hVerdict : Proxy.verdict "relay.example" 22 Proxy.Sample.unauthenticated =
      .error Proxy.Sample.refused := rfl
  obtain ⟨hFinished, hLeft⟩ :=
    (Proxy.answered_of_takesAll hTakes "relay.example" 22 (some Proxy.Sample.rightPassword)).head
      _ _ hComing hHead (by decide +kernel)
  refine ⟨?_, ?_, ?_, ?_⟩
  · rw [hSame.result, hFinished, hVerdict]
  · rw [hSame.unread, Proxy.Wire.unread_eq, hLeft, Proxy.filterMap_map_ok]
  · exact hSame.reported
      { targets := [], proxy := some (Proxy.Sample.proxyWith Proxy.Sample.rightPassword) } _ rfl rfl
      false "relay.example" Proxy.Sample.refused
  · exact ((hSame.shown rfl).2 "proxy.example" 3128).inline

end RelayRace
