import RelayRace.Notice
import RelayRace.Proxy.Settings
import RelayRace.Session

/-!
# What the probes of a round share

The context of a round is fixed when the round sends out its probes. One thing
changes behind it: whether a failure of the whole connection was told already.
All candidates share one proxy and one route, so a fault of either is told once
in a round and not once for every candidate.
-/

namespace RelayRace

/-- Who takes sockets out of a private network, and how that fails if it does. -/
structure Protector where
  refusal : Option IoFault := none
  deriving DecidableEq, Repr

/-- What the probes of a round share. -/
structure RoundContext where
  /-- The protocols that are searched. -/
  targets : List Protocol
  /-- Whoever has to be asked before a socket leaves this host. -/
  protector : Option Protector := none
  /-- The proxy that direct connections go through. -/
  proxy : Option ProxySettings := none
  session : SessionParams := {}
  /-- How often a waiting probe looks at its signal. -/
  poll : Duration := .ofMillis 50
  deriving DecidableEq, Repr

namespace RoundContext

/-- Whether a failure is taken for one of the proxy. -/
def blamesProxy (ctx : RoundContext) (failure : Failure) : Bool :=
  ctx.proxy.isSome && failure.isProxyRelated

/-- Whether a failure is one that all candidates share. -/
def isShared (ctx : RoundContext) (failure : Failure) : Bool :=
  !failure.isAborted && (ctx.blamesProxy failure || failure.isUnreachable)

/-- What is told about the failure of an attempt, given whether a shared failure
was told before, and whether one has been told after it. -/
def report (ctx : RoundContext) (told : Bool) (address : String) (failure : Failure) :
    List Notice × Bool :=
  if failure.isAborted then ([], told)
  else if ctx.isShared failure then
    if told then ([], true)
    else if ctx.blamesProxy failure then ([.proxyConnectError failure], true)
    else ([.networkUnreachable failure], true)
  else ([.probeFailed address failure], told)

end RoundContext

end RelayRace
