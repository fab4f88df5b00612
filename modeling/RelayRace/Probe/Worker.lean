import RelayRace.Probe.Outcome
import RelayRace.TargetSequence

/-!
# Workers

A worker turns one attempt into one outcome. It chooses the protocol, writes it
back to its copy of the candidate, tells the log how a failed attempt failed,
and closes whatever a failed attempt held before it hands the outcome over. A
worker that crashes also yields an outcome, with the candidate as it was
dispatched.
-/

namespace RelayRace

/-- A candidate that is to be probed, and its place in the order of dispatch. -/
structure Job where
  index : Nat
  candidate : Candidate
  deriving DecidableEq, Repr

/-- How a worker stands after a step. -/
inductive Standing where
  | running (attempt : Attempt)
  | ended (outcome : Outcome)
  deriving DecidableEq, Repr

/-- A worker's step: how it stands, whether a shared failure has been told by
now, and what was done. -/
structure Turn where
  standing : Standing
  told : Bool
  acts : List Act
  deriving DecidableEq, Repr

namespace Worker

/-- The time since an attempt began. -/
def elapsed (m : Moment) (a : Attempt) : Duration := ⟨m.now - a.began⟩

/-- The outcome of an attempt that failed. It holds nothing. -/
def failedOutcome (m : Moment) (a : Attempt) (failure : Failure) : Outcome :=
  { index := a.index
    candidate := a.candidate
    protocol := some a.protocol
    elapsed := elapsed m a
    error := some failure.message
    usedProxy := a.usedProxy }

/-- The outcome of an attempt that is connected. -/
def respondedOutcome (m : Moment) (a : Attempt) : Outcome :=
  { index := a.index
    candidate := a.candidate
    protocol := some a.protocol
    responded := true
    elapsed := elapsed m a
    usedProxy := a.usedProxy
    held := a.held }

/-- Settles a step of the attempt. -/
def settle (ctx : RoundContext) (m : Moment) (told : Bool) : Progress × List Act → Turn
  | (.waiting a, acts) => ⟨.running a, told, acts⟩
  | (.connected a, acts) => ⟨.ended (respondedOutcome m a), told, acts⟩
  | (.broken a failure, acts) =>
      let (lines, told) := ctx.report told a.candidate.ipAddress failure
      ⟨.ended (failedOutcome m a failure), told,
        acts ++ lines.map .noted ++ a.held.closing a.index⟩

/-- Starts on a job. A candidate that no target reaches is given up at once. -/
def start (ctx : RoundContext) (m : Moment) (told : Bool) (job : Job) : Turn :=
  match TargetSequence.choose ctx.targets job.candidate with
  | none =>
      let failure := Failure.noProtocol job.candidate.ipAddress
      ⟨.ended (.failed job.index job.candidate none .zero failure.message), told, []⟩
  | some protocol =>
      let a : Attempt :=
        { index := job.index
          dispatched := job.candidate
          candidate := { job.candidate with connType := some protocol }
          protocol
          began := m.now
          due := m.now }
      settle ctx m told (a.start ctx m)

/-- Goes on with an answer. -/
def answer (ctx : RoundContext) (m : Moment) (told : Bool) (a : Attempt) (given : Answer) : Turn :=
  settle ctx m told (a.answer ctx m given)

/-- Goes on at a poll. -/
def poll (ctx : RoundContext) (m : Moment) (told : Bool) (a : Attempt) : Turn :=
  settle ctx m told (a.poll ctx m)

/-- Ends a worker that crashed. What it held is closed before that is told. -/
def crash (m : Moment) (told : Bool) (a : Attempt) : Turn :=
  ⟨.ended (.failed a.index a.dispatched none (elapsed m a) "probe worker panicked"), told,
    a.held.closing a.index ++ [.noted (.probeCrashed a.dispatched.ipAddress)]⟩

/-- Ends a worker by force. What it held is closed, and there is no outcome. -/
def kill (a : Attempt) : List Act := a.held.closing a.index

end Worker

end RelayRace
