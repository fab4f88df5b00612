import RelayRace.Probe.Worker

/-!
# Probes with other credentials

Giving a proxy other credentials (`rekeyed`) changes what a probe asks for at one
place: where it asks the proxy for a tunnel.  Every step of an attempt and of a
worker commutes with that change (`Attempt.answer_rekeyed`, `Worker.start_rekeyed`
and the like): from the same answers it goes on in the same way, and does the same
but for the credentials that it sends.

What is told about a failure depends on whether there is a proxy, and not on how
it is asked (`RoundContext.report_rekeyed`).
-/

namespace RelayRace

/-! ## Other credentials -/

/-- The same proxy with other credentials, if it asks for any. -/
def ProxySettings.rekeyed (credentials : Credentials) (proxy : ProxySettings) : ProxySettings :=
  { proxy with credentials := proxy.credentials.map fun _ => credentials }

/-- The same context with other credentials for its proxy. -/
def RoundContext.rekeyed (credentials : Credentials) (ctx : RoundContext) : RoundContext :=
  { ctx with proxy := ctx.proxy.map (ProxySettings.rekeyed credentials) }

/-- The same inquiry; one for a tunnel has other credentials. -/
def Inquiry.rekeyed (credentials : Credentials) : Inquiry → Inquiry
  | .tunnel host port old => .tunnel host port (old.map fun _ => credentials)
  | .resolve host port => .resolve host port
  | .dial endpoint => .dial endpoint
  | .start target => .start target
  | .establish candidate session => .establish candidate session

/-- The same act; one that asks for a tunnel has other credentials. -/
def Act.rekeyed (credentials : Credentials) : Act → Act
  | .asked owner inquiry => .asked owner (inquiry.rekeyed credentials)
  | act => act

/-- What came of a step, and its acts with other credentials. -/
def rekeyedActs {α : Type} (credentials : Credentials) (step : α × List Act) : α × List Act :=
  (step.1, step.2.map (Act.rekeyed credentials))

section Acts

variable (credentials : Credentials)

@[simp] theorem Act.map_rekeyed_noted (lines : List Notice) :
    (lines.map Act.noted).map (Act.rekeyed credentials) = lines.map .noted :=
  List.map_map

@[simp] theorem Holdings.map_rekeyed_closing (h : Holdings) (owner : Nat) :
    (h.closing owner).map (Act.rekeyed credentials) = h.closing owner :=
  List.map_map

/-- The log is the same. -/
@[simp] theorem notices_map_rekeyed (acts : List Act) :
    notices (acts.map (Act.rekeyed credentials)) = notices acts := by
  rw [notices, notices, List.filterMap_map]
  congr 1
  funext act
  cases act <;> rfl

end Acts

/-! ## Reports -/

namespace RoundContext

variable (credentials : Credentials) (ctx : RoundContext)

@[simp] theorem isSome_proxy_rekeyed : (ctx.rekeyed credentials).proxy.isSome = ctx.proxy.isSome :=
  Option.isSome_map

theorem blamesProxy_rekeyed (failure : Failure) :
    (ctx.rekeyed credentials).blamesProxy failure = ctx.blamesProxy failure := by
  rw [blamesProxy, blamesProxy, isSome_proxy_rekeyed]

theorem isShared_rekeyed (failure : Failure) :
    (ctx.rekeyed credentials).isShared failure = ctx.isShared failure := by
  rw [isShared, isShared, blamesProxy_rekeyed]

theorem report_rekeyed (told : Bool) (address : String) (failure : Failure) :
    (ctx.rekeyed credentials).report told address failure = ctx.report told address failure := by
  rw [report, report, isShared_rekeyed, blamesProxy_rekeyed]

end RoundContext

/-! ## Attempts -/

namespace Attempt

variable (credentials : Credentials) (ctx : RoundContext) (m : Moment) (a : Attempt)

theorem destination_rekeyed : a.destination (ctx.rekeyed credentials) = a.destination ctx := by
  simp only [destination, RoundContext.rekeyed]
  cases ctx.proxy <;> rfl

theorem enter_rekeyed (stage : Stage) (inquiry : Inquiry) :
    a.enter (ctx.rekeyed credentials) m stage (inquiry.rekeyed credentials) =
      rekeyedActs credentials (a.enter ctx m stage inquiry) := by
  unfold enter
  split <;> rfl

theorem after_rekeyed (acts : List Act) (step : Progress × List Act) :
    after (acts.map (Act.rekeyed credentials)) (rekeyedActs credentials step) =
      rekeyedActs credentials (after acts step) := by
  simp only [after, rekeyedActs, List.map_append]

theorem needsTunnel_rekeyed (step : Progress × List Act) :
    needsTunnel (rekeyedActs credentials step) = rekeyedActs credentials (needsTunnel step) := by
  rcases step with ⟨progress, acts⟩
  cases progress with
  | broken a failure => simp only [needsTunnel, rekeyedActs, List.map_append]; rfl
  | waiting | connected => rfl

theorem beginDirect_rekeyed :
    a.beginDirect (ctx.rekeyed credentials) m = rekeyedActs credentials (a.beginDirect ctx m) := by
  simp only [beginDirect, destination_rekeyed, RoundContext.isSome_proxy_rekeyed]
  exact enter_rekeyed credentials ctx m _ _ (.resolve _ _)

theorem beginSubServer_rekeyed :
    a.beginSubServer (ctx.rekeyed credentials) m =
      rekeyedActs credentials (a.beginSubServer ctx m) := by
  unfold beginSubServer
  split
  · rfl
  · rw [← after_rekeyed, ← enter_rekeyed]
    rfl

theorem start_rekeyed :
    a.start (ctx.rekeyed credentials) m = rekeyedActs credentials (a.start ctx m) := by
  unfold start
  split
  · rfl
  · simp only
    split
    · exact beginSubServer_rekeyed ..
    · exact beginDirect_rekeyed ..

theorem dial_rekeyed (endpoint : Endpoint) :
    a.dial (ctx.rekeyed credentials) m endpoint =
      rekeyedActs credentials (a.dial ctx m endpoint) := by
  unfold dial
  rw [show (ctx.rekeyed credentials).protector = ctx.protector from rfl]
  split
  · exact enter_rekeyed credentials ctx m a _ (.dial endpoint)
  · split
    · rfl
    · rw [← after_rekeyed, ← enter_rekeyed]
      rfl

theorem shake_rekeyed :
    a.shake (ctx.rekeyed credentials) m = rekeyedActs credentials (a.shake ctx m) :=
  enter_rekeyed credentials ctx m a _ (.establish _ _)

/-- The one step that looks at the credentials, to send them. -/
theorem dialedDirect_rekeyed :
    a.dialedDirect (ctx.rekeyed credentials) m =
      rekeyedActs credentials (a.dialedDirect ctx m) := by
  cases hProxy : ctx.proxy with
  | none =>
      simp only [dialedDirect, RoundContext.rekeyed, hProxy, Option.map_none]
      exact shake_rekeyed credentials ctx m a
  | some proxy =>
      simp only [dialedDirect, hProxy, ← needsTunnel_rekeyed, ← enter_rekeyed]
      simp only [RoundContext.rekeyed, hProxy, Option.map_some]
      rfl

theorem answer_rekeyed (given : Answer) :
    a.answer (ctx.rekeyed credentials) m given =
      rekeyedActs credentials (a.answer ctx m given) := by
  unfold answer
  split
  case h_1 => exact dial_rekeyed ..
  case h_2 =>
    rw [destination_rekeyed]
    rfl
  case h_3 =>
    rw [← after_rekeyed, ← dialedDirect_rekeyed]
    rfl
  case h_5 => exact shake_rekeyed ..
  case h_7 =>
    rw [← after_rekeyed, ← enter_rekeyed]
    rfl
  case h_9 =>
    rw [← after_rekeyed, ← shake_rekeyed]
    rfl
  all_goals rfl

theorem poll_rekeyed :
    a.poll (ctx.rekeyed credentials) m = rekeyedActs credentials (a.poll ctx m) := by
  unfold poll
  split
  · split <;> rfl
  · rfl

end Attempt

/-! ## Workers -/

/-- The same turn, its acts with other credentials. -/
def Turn.rekeyed (credentials : Credentials) (turn : Turn) : Turn :=
  { turn with acts := turn.acts.map (Act.rekeyed credentials) }

namespace Worker

variable (credentials : Credentials) (ctx : RoundContext) (m : Moment) (told : Bool)

theorem settle_rekeyed (step : Progress × List Act) :
    settle (ctx.rekeyed credentials) m told (rekeyedActs credentials step) =
      (settle ctx m told step).rekeyed credentials := by
  rcases step with ⟨progress, acts⟩
  cases progress with
  | waiting | connected => rfl
  | broken a failure =>
      simp only [settle, rekeyedActs, RoundContext.report_rekeyed, Turn.rekeyed, List.map_append,
        Act.map_rekeyed_noted, Holdings.map_rekeyed_closing]

theorem start_rekeyed (job : Job) :
    start (ctx.rekeyed credentials) m told job =
      (start ctx m told job).rekeyed credentials := by
  unfold start
  rw [show (ctx.rekeyed credentials).targets = ctx.targets from rfl]
  split
  · rfl
  · rw [← settle_rekeyed, ← Attempt.start_rekeyed]

theorem answer_rekeyed (a : Attempt) (given : Answer) :
    answer (ctx.rekeyed credentials) m told a given =
      (answer ctx m told a given).rekeyed credentials := by
  rw [answer, answer, Attempt.answer_rekeyed, settle_rekeyed]

theorem poll_rekeyed (a : Attempt) :
    poll (ctx.rekeyed credentials) m told a = (poll ctx m told a).rekeyed credentials := by
  rw [poll, poll, Attempt.poll_rekeyed, settle_rekeyed]

theorem crash_rekeyed (a : Attempt) : crash m told a = (crash m told a).rekeyed credentials := by
  simp only [crash, Turn.rekeyed, List.map_append, Holdings.map_rekeyed_closing]
  rfl

end Worker

end RelayRace
