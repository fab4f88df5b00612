import RelayRace.Probe.Act

/-!
# Counting acts

What a simulation counts: the handles that are open, how often each kind was
opened and closed, and how often the environment was asked for something. Every
count is a fold over the acts.
-/

namespace RelayRace.Simulation

/-- The counts. -/
structure Tally where
  connectionsOpen : Nat := 0
  connectionsClosed : Nat := 0
  /-- The owners of the sub-servers that run. -/
  subServersRunning : List Nat := []
  subServersStarted : Nat := 0
  subServersStopped : Nat := 0
  guarded : Nat := 0
  connectivityChecks : Nat := 0
  resolverRefreshes : Nat := 0
  /-- For every fetch, whether it was given a protector. -/
  fetches : List Bool := []
  deriving DecidableEq, Repr

namespace Tally

/-- Counts one act. -/
def add (t : Tally) : Act → Tally
  | .checkedConnectivity => { t with connectivityChecks := t.connectivityChecks + 1 }
  | .refreshedResolvers => { t with resolverRefreshes := t.resolverRefreshes + 1 }
  | .fetched withProtector => { t with fetches := t.fetches ++ [withProtector] }
  | .guarded _ => { t with guarded := t.guarded + 1 }
  | .started owner =>
      { t with
        subServersStarted := t.subServersStarted + 1
        subServersRunning := t.subServersRunning ++ [owner] }
  | .opened handle =>
      match handle.kind with
      | .connection => { t with connectionsOpen := t.connectionsOpen + 1 }
      | .socket | .subServer => t
  | .closed handle =>
      match handle.kind with
      | .connection =>
          { t with
            connectionsOpen := t.connectionsOpen - 1
            connectionsClosed := t.connectionsClosed + 1 }
      | .subServer =>
          { t with
            subServersStopped := t.subServersStopped + 1
            subServersRunning := t.subServersRunning.erase handle.owner }
      | .socket => t
  | .noted _ | .readList | .movedToFront _ | .made .. | .asked .. => t

/-- Counts several acts. -/
def addAll (t : Tally) (acts : List Act) : Tally := acts.foldl add t

end Tally

end RelayRace.Simulation
