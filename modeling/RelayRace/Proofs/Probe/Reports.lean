import Mathlib.Data.List.Induction
import RelayRace.Probe.Context

/-!
# What a round tells about failed probes

The probes of a round report their failures one after the other, in whatever
order their workers come to it, and the flag of the round is handed from each
report to the next.  A sequence of reports therefore stands for an interleaving
of the workers, and `RoundContext.reported` is the log and the flag after one.

The classes of failures are written here as the kinds that belong to them and are
proved to be what the code tests for.  What a report writes depends on the
reports before it in one way only: whether a shared failure was among them
(`RoundContext.Writes`).  The invariant is that the flag says just that, so the
one grave line of a round is about its first shared failure.
-/

namespace RelayRace

/-! ## The classes of failures -/

namespace Failure

/-- Failures for want of a way to the other side. -/
inductive Unreachable : Failure → Prop
  | connect (endpoint : Endpoint) (cause : IoFault)
      (hKind : cause.kind = .networkUnreachable ∨ cause.kind = .hostUnreachable) :
      Unreachable (.connect endpoint cause)
  | inputOutput (cause : IoFault)
      (hKind : cause.kind = .networkUnreachable ∨ cause.kind = .hostUnreachable) :
      Unreachable (.inputOutput cause)

/-- Failures that a broken proxy shows itself by. -/
inductive ProxyRelated : Failure → Prop
  | unresolved (host : String) (port : UInt16) : ProxyRelated (.unresolved host port)
  | proxyTunnel (message : String) : ProxyRelated (.proxyTunnel message)
  | connect (endpoint : Endpoint) (cause : IoFault) : ProxyRelated (.connect endpoint cause)

theorem isAborted_iff (failure : Failure) : failure.isAborted = true ↔ failure = .aborted := by
  cases failure <;> simp [isAborted]

theorem isProxyRelated_iff (failure : Failure) :
    failure.isProxyRelated = true ↔ failure.ProxyRelated := by
  constructor
  · intro hRelated
    cases failure with
    | unresolved host port => exact .unresolved host port
    | proxyTunnel message => exact .proxyTunnel message
    | connect endpoint cause => exact .connect endpoint cause
    | _ => cases hRelated
  · intro hRelated
    cases hRelated <;> rfl

end Failure

theorem IoFault.isUnreachable_iff (cause : IoFault) :
    cause.isUnreachable = true ↔
      cause.kind = .networkUnreachable ∨ cause.kind = .hostUnreachable := by
  unfold IoFault.isUnreachable
  cases cause.kind <;> simp

theorem Failure.isUnreachable_iff (failure : Failure) :
    failure.isUnreachable = true ↔ failure.Unreachable := by
  constructor
  · intro hUnreachable
    cases failure with
    | connect endpoint cause =>
        exact .connect endpoint cause (cause.isUnreachable_iff.mp hUnreachable)
    | inputOutput cause => exact .inputOutput cause (cause.isUnreachable_iff.mp hUnreachable)
    | _ => cases hUnreachable
  · intro hUnreachable
    cases hUnreachable with
    | connect endpoint cause hKind => exact cause.isUnreachable_iff.mpr hKind
    | inputOutput cause hKind => exact cause.isUnreachable_iff.mpr hKind

namespace RoundContext

variable (ctx : RoundContext)

/-- A failure is taken for one of the proxy: there is a proxy, and it may be the
cause. -/
structure Blames (failure : Failure) : Prop where
  proxied : ∃ proxy, ctx.proxy = some proxy
  related : failure.ProxyRelated

/-- A failure that all candidates of the round share. -/
structure Shares (failure : Failure) : Prop where
  notAborted : failure ≠ .aborted
  common : failure.Unreachable ∨ ctx.Blames failure

theorem blamesProxy_iff (failure : Failure) :
    ctx.blamesProxy failure = true ↔ ctx.Blames failure := by
  rw [blamesProxy, Bool.and_eq_true, Option.isSome_iff_exists, failure.isProxyRelated_iff]
  exact ⟨fun ⟨hProxied, hRelated⟩ => ⟨hProxied, hRelated⟩,
    fun hBlames => ⟨hBlames.proxied, hBlames.related⟩⟩

theorem isShared_iff (failure : Failure) :
    ctx.isShared failure = true ↔ ctx.Shares failure := by
  have hAborted : failure.isAborted = false ↔ failure ≠ .aborted := by
    rw [Ne, ← failure.isAborted_iff, Bool.not_eq_true]
  rw [isShared, Bool.and_eq_true, Bool.not_eq_true', Bool.or_eq_true, ctx.blamesProxy_iff,
    failure.isUnreachable_iff, hAborted]
  exact ⟨fun ⟨hNot, hCommon⟩ => ⟨hNot, hCommon.symm⟩,
    fun hShares => ⟨hShares.notAborted, hShares.common.symm⟩⟩

end RoundContext

/-! ## Reports in a row -/

/-- A report: the address of the candidate, and how its probe failed. -/
structure FailedProbe where
  address : String
  failure : Failure
  deriving DecidableEq, Repr

/-- The log of a round, and whether a shared failure has been told in it. -/
structure RoundLog where
  told : Bool := false
  lines : List Notice := []
  deriving DecidableEq, Repr

/-- The grave lines of a log. -/
def RoundLog.errors (log : RoundLog) : List Notice :=
  log.lines.filter fun line => line.level == .error

namespace RoundContext

/-- Adds a report to the log. -/
def record (ctx : RoundContext) (log : RoundLog) (call : FailedProbe) : RoundLog :=
  let (lines, told) := ctx.report log.told call.address call.failure
  ⟨told, log.lines ++ lines⟩

/-- The log of a round after a sequence of reports. -/
def reported (ctx : RoundContext) (calls : List FailedProbe) : RoundLog :=
  calls.foldl ctx.record {}

/-- What a report writes after those `before` it.  The conditions of the cases
exclude one another. -/
inductive Writes (ctx : RoundContext) (before : List FailedProbe) (call : FailedProbe) :
    List Notice → Prop
  /-- Nothing is told of an attempt that was called off. -/
  | aborted (hAborted : call.failure = .aborted) : Writes ctx before call []
  /-- The first shared failure, put down to the proxy. -/
  | firstOfProxy (hShares : ctx.Shares call.failure) (hBlames : ctx.Blames call.failure)
      (hFirst : ∀ other ∈ before, ¬ ctx.Shares other.failure) :
      Writes ctx before call [.proxyConnectError call.failure]
  /-- The first shared failure, put down to the route. -/
  | firstOfRoute (hShares : ctx.Shares call.failure) (hNotProxy : ¬ ctx.Blames call.failure)
      (hFirst : ∀ other ∈ before, ¬ ctx.Shares other.failure) :
      Writes ctx before call [.networkUnreachable call.failure]
  /-- A shared failure after the first. -/
  | again (hShares : ctx.Shares call.failure)
      (hBefore : ∃ other ∈ before, ctx.Shares other.failure) : Writes ctx before call []
  /-- A failure of the candidate's own. -/
  | own (hNotAborted : call.failure ≠ .aborted) (hOwn : ¬ ctx.Shares call.failure) :
      Writes ctx before call [.probeFailed call.address call.failure]

variable (ctx : RoundContext)

theorem reported_snoc (calls : List FailedProbe) (call : FailedProbe) :
    ctx.reported (calls ++ [call]) = ctx.record (ctx.reported calls) call := by
  simp [reported]

/-- One report, by what the flag says: what it writes, and the flag after it. -/
theorem record_writes {log : RoundLog} {before : List FailedProbe}
    (hTold : log.told = true ↔ ∃ other ∈ before, ctx.Shares other.failure)
    (call : FailedProbe) :
    ∃ written, (ctx.record log call).lines = log.lines ++ written ∧
      ctx.Writes before call written ∧
      ((ctx.record log call).told = true ↔ log.told = true ∨ ctx.Shares call.failure) := by
  by_cases hAborted : call.failure = .aborted
  · have hNotShared : ¬ ctx.Shares call.failure := fun hShares => hShares.notAborted hAborted
    have hReport : ctx.report log.told call.address call.failure = ([], log.told) := by
      simp [report, (Failure.isAborted_iff _).mpr hAborted]
    refine ⟨[], ?_, .aborted hAborted, ?_⟩
    · simp [record, hReport]
    · simp [record, hReport, hNotShared]
  have hGoesOn : call.failure.isAborted = false := by
    rwa [← Failure.isAborted_iff, Bool.not_eq_true] at hAborted
  by_cases hShares : ctx.Shares call.failure
  · have hShared : ctx.isShared call.failure = true := (ctx.isShared_iff _).mpr hShares
    cases hFlag : log.told with
    | true =>
        refine ⟨[], ?_, .again hShares (hTold.mp hFlag), ?_⟩
        · simp [record, report, hGoesOn, hShared, hFlag]
        · simp [record, report, hGoesOn, hShared, hFlag]
    | false =>
        have hFirst : ∀ other ∈ before, ¬ ctx.Shares other.failure := by
          intro other hMem hOther
          have hRaised : log.told = true := hTold.mpr ⟨other, hMem, hOther⟩
          rw [hFlag] at hRaised
          cases hRaised
        by_cases hBlames : ctx.Blames call.failure
        · have hProxy : ctx.blamesProxy call.failure = true := (ctx.blamesProxy_iff _).mpr hBlames
          refine ⟨_, ?_, .firstOfProxy hShares hBlames hFirst, ?_⟩
          · simp [record, report, hGoesOn, hShared, hFlag, hProxy]
          · simp [record, report, hGoesOn, hShared, hFlag, hProxy, hShares]
        · have hRoute : ctx.blamesProxy call.failure = false := by
            rwa [← ctx.blamesProxy_iff, Bool.not_eq_true] at hBlames
          refine ⟨_, ?_, .firstOfRoute hShares hBlames hFirst, ?_⟩
          · simp [record, report, hGoesOn, hShared, hFlag, hRoute]
          · simp [record, report, hGoesOn, hShared, hFlag, hRoute, hShares]
  · have hOwn : ctx.isShared call.failure = false := by
      rwa [← ctx.isShared_iff, Bool.not_eq_true] at hShares
    refine ⟨_, ?_, .own hAborted hShares, ?_⟩
    · simp [record, report, hGoesOn, hOwn]
    · simp [record, report, hGoesOn, hOwn, hShares]

/-- The flag is raised from the first shared failure on. -/
theorem told_reported (calls : List FailedProbe) :
    (ctx.reported calls).told = true ↔ ∃ call ∈ calls, ctx.Shares call.failure := by
  induction calls using List.reverseRecOn with
  | nil => simp [reported]
  | append_singleton calls call ih =>
      obtain ⟨_, -, -, hFlag⟩ := ctx.record_writes ih call
      rw [reported_snoc, hFlag, ih]
      simp [or_and_right, exists_or]

/-- What the report `call` adds to the log of those before it. -/
theorem lines_reported (before : List FailedProbe) (call : FailedProbe) :
    ∃ written, (ctx.reported (before ++ [call])).lines = (ctx.reported before).lines ++ written ∧
      ctx.Writes before call written := by
  obtain ⟨written, hLines, hWrites, -⟩ := ctx.record_writes (ctx.told_reported before) call
  exact ⟨written, by rw [reported_snoc, hLines], hWrites⟩

/-! ## The grave lines -/

/-- The line that tells of a shared failure. -/
inductive Describes (failure : Failure) : Notice → Prop
  | ofProxy (hBlames : ctx.Blames failure) : Describes failure (.proxyConnectError failure)
  | ofRoute (hNotProxy : ¬ ctx.Blames failure) : Describes failure (.networkUnreachable failure)

variable {ctx}

/-- Of what a report writes, a grave line is there only if it is the first about
a shared failure, and then nothing else is. -/
theorem Writes.errors {before : List FailedProbe} {call : FailedProbe} {written : List Notice}
    (hWrites : ctx.Writes before call written) :
    (ctx.Shares call.failure ∧ (∀ other ∈ before, ¬ ctx.Shares other.failure) ∧
        ∃ line, ctx.Describes call.failure line ∧
          written.filter (fun line => line.level == .error) = [line]) ∨
      ((ctx.Shares call.failure → ∃ other ∈ before, ctx.Shares other.failure) ∧
        written.filter (fun line => line.level == .error) = []) := by
  cases hWrites with
  | aborted hAborted => exact .inr ⟨fun hShares => absurd hAborted hShares.notAborted, rfl⟩
  | firstOfProxy hShares hBlames hFirst =>
      exact .inl ⟨hShares, hFirst, _, .ofProxy hBlames, rfl⟩
  | firstOfRoute hShares hNotProxy hFirst =>
      exact .inl ⟨hShares, hFirst, _, .ofRoute hNotProxy, rfl⟩
  | again hShares hBefore => exact .inr ⟨fun _ => hBefore, rfl⟩
  | own hNotAborted hOwn => exact .inr ⟨fun hShares => absurd hShares hOwn, rfl⟩

variable (ctx)

/-- The grave lines after a report are those before it and its own. -/
theorem errors_reported_snoc (before : List FailedProbe) (call : FailedProbe) :
    ∃ written, ctx.Writes before call written ∧
      (ctx.reported (before ++ [call])).errors =
        (ctx.reported before).errors ++ written.filter fun line => line.level == .error := by
  obtain ⟨written, hLines, hWrites⟩ := ctx.lines_reported before call
  exact ⟨written, hWrites, by rw [RoundLog.errors, hLines, List.filter_append]; rfl⟩

/-- Without a shared failure there is no grave line. -/
theorem errors_of_none_shared (calls : List FailedProbe)
    (hNone : ∀ call ∈ calls, ¬ ctx.Shares call.failure) : (ctx.reported calls).errors = [] := by
  induction calls using List.reverseRecOn with
  | nil => rfl
  | append_singleton calls call ih =>
      have hBefore : ∀ other ∈ calls, ¬ ctx.Shares other.failure := fun other hMem =>
        hNone other (List.mem_append_left _ hMem)
      obtain ⟨written, hWrites, hErrors⟩ := ctx.errors_reported_snoc calls call
      rcases hWrites.errors with ⟨hShares, -⟩ | ⟨-, hQuiet⟩
      · exact absurd hShares (hNone call (by simp))
      · rw [hErrors, ih hBefore, hQuiet, List.append_nil]

/-- After the first shared failure there is one grave line, which describes it. -/
theorem errors_of_first_shared (before : List FailedProbe) (call : FailedProbe)
    (hFirst : ∀ other ∈ before, ¬ ctx.Shares other.failure) (hShares : ctx.Shares call.failure)
    (later : List FailedProbe) :
    ∃ line, ctx.Describes call.failure line ∧
      (ctx.reported (before ++ call :: later)).errors = [line] := by
  induction later using List.reverseRecOn with
  | nil =>
      obtain ⟨written, hWrites, hErrors⟩ := ctx.errors_reported_snoc before call
      rcases hWrites.errors with ⟨-, -, line, hDescribes, hLine⟩ | ⟨hBefore, -⟩
      · refine ⟨line, hDescribes, ?_⟩
        rw [hErrors, ctx.errors_of_none_shared before hFirst, hLine, List.nil_append]
      · obtain ⟨other, hMem, hOther⟩ := hBefore hShares
        exact absurd hOther (hFirst other hMem)
  | append_singleton later last ih =>
      obtain ⟨line, hDescribes, hLine⟩ := ih
      obtain ⟨written, hWrites, hErrors⟩ := ctx.errors_reported_snoc (before ++ call :: later) last
      refine ⟨line, hDescribes, ?_⟩
      have hSplit : before ++ call :: (later ++ [last]) = before ++ call :: later ++ [last] := by
        simp
      rcases hWrites.errors with ⟨-, hNone, -⟩ | ⟨-, hQuiet⟩
      · exact absurd hShares (hNone call (by simp))
      · rw [hSplit, hErrors, hLine, hQuiet, List.append_nil]

/-- What the log of a round tells of the failures that were reported to it. -/
structure Accounts (calls : List FailedProbe) : Prop where
  /-- The flag is raised exactly from the first shared failure on. -/
  flag : ∀ before later, calls = before ++ later →
    ((ctx.reported before).told = true ↔ ∃ call ∈ before, ctx.Shares call.failure)
  /-- Each report adds to the log what its place and its failure call for. -/
  each : ∀ before call later, calls = before ++ call :: later →
    ∃ written, (ctx.reported (before ++ [call])).lines = (ctx.reported before).lines ++ written ∧
      ctx.Writes before call written
  /-- Without a shared failure there is no grave line. -/
  silent : (∀ call ∈ calls, ¬ ctx.Shares call.failure) → (ctx.reported calls).errors = []
  /-- Otherwise there is one, and it describes the first. -/
  once : ∀ before call later, calls = before ++ call :: later →
    (∀ other ∈ before, ¬ ctx.Shares other.failure) → ctx.Shares call.failure →
    ∃ line, ctx.Describes call.failure line ∧ (ctx.reported calls).errors = [line]

/-- However the reports of a round come in, a failure that all candidates share
is told gravely once, for the first of them, and every other failure in a line of
its own. -/
theorem shared_failures_told_once (calls : List FailedProbe) : ctx.Accounts calls where
  flag before _ _ := ctx.told_reported before
  each before call _ _ := ctx.lines_reported before call
  silent hNone := ctx.errors_of_none_shared calls hNone
  once before call later hCalls hFirst hShares := by
    rw [hCalls]
    exact ctx.errors_of_first_shared before call hFirst hShares later

end RoundContext

end RelayRace
