import RelayRace.Probe.Worker
import RelayRace.Random.Shuffle
import RelayRace.Settings

/-!
# Whom a round probes

A round takes the stored list as it stands. When the list is longer than the
pool is wide, everything behind the first entry is shuffled, so that load is
spread over the list while the first entry keeps its place. Of the result the
eligible entries are dispatched, numbered in their order.

Whether an entry is eligible depends on the entry alone, given the settings, the
region and the targets: not on its place and not on the other entries.
-/

namespace RelayRace

/-- What makes a candidate eligible in a round. -/
structure Filter where
  /-- The capabilities of which one is needed. -/
  sufficient : List Capability
  /-- The region that the round is confined to. -/
  region : Option String
  /-- The protocols that are searched. -/
  targets : List Protocol
  deriving DecidableEq, Repr

namespace Filter

/-- Whether a candidate is probed: it can be reached, it can carry a tunnel, it
lies in the region, and one of the targets fits it. -/
def admits (filter : Filter) (candidate : Candidate) : Bool :=
  candidate.testPort?.isSome && candidate.hasAny filter.sufficient &&
    candidate.inRegion filter.region &&
    (TargetSequence.choose filter.targets candidate).isSome

end Filter

/-- The order in which a snapshot of the list is gone through. -/
def probeOrder (g : Generator) (poolSize : Nat) (snapshot : List Candidate) :
    List Candidate × Generator :=
  if poolSize < snapshot.length then g.shuffleTail snapshot else (snapshot, g)

/-- Numbers candidates from the given index on. -/
def numberFrom (index : Nat) : List Candidate → List Job
  | [] => []
  | candidate :: rest => ⟨index, candidate⟩ :: numberFrom (index + 1) rest

/-- The jobs of a round: the eligible entries in the order in which the list is
gone through. -/
def jobs (filter : Filter) (ordered : List Candidate) : List Job :=
  numberFrom 0 (ordered.filter filter.admits)

end RelayRace
