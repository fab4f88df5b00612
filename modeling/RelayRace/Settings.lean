import RelayRace.Duration
import RelayRace.Protocol

/-!
# Selector settings

The numbers that steer a selector: how many probes run at once, how often
flags and results are looked at, how long a round and a rest between rounds
may take. `Settings.validate` refuses a combination with the first rule that it
breaks, in the order in which the rules are listed.

Results are looked at on every `pollRatio`-th look at the flags. The ratio is a
32-bit number, and the quotient of the two intervals is cut to that width.
-/

namespace RelayRace

/-- How a selector is set up. -/
structure Settings where
  /-- How many probes run at the same time. -/
  poolSize : Nat := 10
  /-- How often a waiting probe and the round look at the abort flag. -/
  connectPoll : Duration := .ofMillis 50
  /-- How often the round looks at the results that have come in. -/
  resultsPoll : Duration := .ofMillis 100
  /-- How long a finished round waits for its probes to wind up. -/
  grace : Duration := .ofMillis 1000
  /-- How long a round waits for results at most. -/
  maxRound : Duration := .ofSeconds 20
  /-- The shortest rest between two rounds. -/
  backoffMin : Duration := .ofSeconds 1
  /-- The longest rest between two rounds. -/
  backoffMax : Duration := .ofSeconds 2
  /-- How often a round without a network asks whether there is one. -/
  connectivityPoll : Duration := .ofSeconds 1
  /-- The capabilities of which a probed candidate needs one. -/
  sufficient : List Capability := Capability.sufficientForTunnel
  /-- The seed of the shuffles; without one they start from chance. -/
  seed : Option UInt64 := none
  deriving DecidableEq, Repr, Inhabited

/-- Why settings are refused. -/
inductive SettingsFault where
  | emptyPool
  | noConnectPoll
  | unevenResultsPoll
  | roundTooShort
  | backoffReversed
  | noConnectivityPoll
  | nothingSufficient
  deriving DecidableEq, Repr

/-- The rule that was broken, in words. -/
def SettingsFault.message : SettingsFault → String
  | .emptyPool => "pool size must be positive"
  | .noConnectPoll => "connect poll interval must be positive"
  | .unevenResultsPoll =>
      "results poll interval must be a positive multiple of the connect poll interval"
  | .roundTooShort => "max round duration must cover at least one results poll"
  | .backoffReversed => "backoff min exceeds backoff max"
  | .noConnectivityPoll => "connectivity poll interval must be positive"
  | .nothingSufficient => "sufficient capability set is empty"

namespace Settings

/-- Sets both poll intervals. -/
def withPolls (s : Settings) (connect results : Duration) : Settings :=
  { s with connectPoll := connect, resultsPoll := results }

/-- Sets both ends of the rest between rounds. -/
def withBackoff (s : Settings) (shortest longest : Duration) : Settings :=
  { s with backoffMin := shortest, backoffMax := longest }

/-- How many looks at the flags go to one look at the results: the quotient of
the two intervals, at least one, cut to 32 bits. -/
def pollRatio (s : Settings) : Nat :=
  max (s.resultsPoll.nanos / max s.connectPoll.nanos 1) 1 % UInt32.size

/-- Whether the results interval is a positive multiple of the connect interval. -/
def pollsMatch (s : Settings) : Bool :=
  s.connectPoll.nanos ≤ s.resultsPoll.nanos &&
    s.resultsPoll.nanos % s.connectPoll.nanos == 0

/-- Accepts usable settings and names the first rule that others break. -/
def validate (s : Settings) : Except SettingsFault Unit :=
  if s.poolSize = 0 then .error .emptyPool
  else if s.connectPoll.isZero then .error .noConnectPoll
  else if !s.pollsMatch then .error .unevenResultsPoll
  else if s.maxRound < s.resultsPoll then .error .roundTooShort
  else if s.backoffMax < s.backoffMin then .error .backoffReversed
  else if s.connectivityPoll.isZero then .error .noConnectivityPoll
  else if s.sufficient.isEmpty then .error .nothingSufficient
  else .ok ()

end Settings

end RelayRace
