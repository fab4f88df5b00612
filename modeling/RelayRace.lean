import RelayRace.Builder
import RelayRace.Identity
import RelayRace.Selection.Calls
import RelayRace.Signal
import RelayRace.Simulation.Session
import RelayRace.Proofs.Proxy.Framing
import RelayRace.Proofs.Probe.Attempt
import RelayRace.Proofs.Probe.Worker
import RelayRace.Proofs.FirstMatch
import RelayRace.Proofs.Schedule
import RelayRace.Proofs.Selection.PoolLedger
import RelayRace.Proofs.Selection.Custody
import RelayRace.Proofs.Selection.RaceLedger
import RelayRace.Proofs.Selection.Reorderings
import RelayRace.Proofs.Selection.RoundTrace
import RelayRace.Proofs.Random.Shuffle
import RelayRace.Proofs.Selection.Responders
import RelayRace.Proofs.Selection.Handover
import RelayRace.Proofs.Selection.Accounting
import RelayRace.Proofs.Selection.Conclusion
import RelayRace.Proofs.Selection.Timing
import RelayRace.Proofs.ServerList
import RelayRace.Proofs.ServerList.Interleaving
import RelayRace.Proofs.Selection.Persistence
import RelayRace.Proofs.Selection.CallStep
import RelayRace.Proofs.Selection.Exclusion
import RelayRace.Proofs.Selection.EarlierRuns
import RelayRace.Proofs.Json.Entry
import RelayRace.Proofs.Selection.LoopTrace
import RelayRace.Proofs.Selection.Winding
import RelayRace.Proofs.Selection.AbortedRun
import RelayRace.Proofs.Simulation.Schedules
import RelayRace.Proofs.Signal.Propagation
import RelayRace.Proofs.Selection.PollRatio
import RelayRace.Proofs.Selection.Dispatch
import RelayRace.Proofs.Selection.Unwinding
import RelayRace.Proofs.Selection.Preference
import RelayRace.Proofs.ServerList.Reordered
import RelayRace.Proofs.ServerList.Merged
import RelayRace.ServerList.Usage
import RelayRace.Proofs.ServerList.Throttle
import RelayRace.Proofs.Proxy.Request
import RelayRace.Proofs.Proxy.ReadBack
import RelayRace.Proofs.Proxy.StatusLine
import RelayRace.Proofs.Probe.Reports
import RelayRace.Proofs.Probe.Course
import RelayRace.Proofs.Probe.Agreement
import RelayRace.Proofs.Selection.StoppedRound
import RelayRace.Proofs.Statistics
import RelayRace.Proofs.Statistics.Sums
import RelayRace.Proofs.Selection.Backoff
import RelayRace.Proofs.TargetSequence
import RelayRace.Proofs.Sleep
import RelayRace.Proofs.Selection.Breaches
import RelayRace.Proofs.Selection.Gate
import RelayRace.Proofs.Selection.Vigil
import RelayRace.Proofs.Selection.Blame
import RelayRace.Proofs.ServerList.Decoding
import RelayRace.Proofs.Json.Accepted
import RelayRace.Proofs.Selection.Secrecy
import RelayRace.Proofs.Builder.Logger
