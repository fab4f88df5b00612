import RelayRace.Proofs.Builder
import RelayRace.Proofs.TargetSequence

/-!
# What building makes of what was collected

Building goes through six checks (`Check.order`).  It is refused with what the first of
them finds that finds anything (`Builder.assemble_eq_error_iff`), and otherwise puts
together what the slots hold (`Builder.assemble_eq_ok`).  Neither looks at anything but
the slots, so builders that hold the same are built alike (`Builder.build_congr`),
whatever the steps that led to them.

A coordinator is told by the steps themselves (`Builder.assembled`): what it holds is
what the last steps that set anything left.
-/

namespace RelayRace

/-! ## Checks -/

/-- One of the checks of a builder. -/
inductive Check where
  | settings
  | targets
  | list
  | collaborator (collaborator : Collaborator)
  deriving DecidableEq, Repr

/-- The checks in the order in which they are made. -/
def Check.order : List Check :=
  [.settings, .targets, .list, .collaborator .handshake, .collaborator .subServers,
    .collaborator .environment]

theorem Check.mem_order (check : Check) : check ∈ Check.order := by
  cases check with
  | collaborator c => cases c <;> decide
  | settings | targets | list => decide

/-- What a check asks of a builder.  Targets need not be given, but if they are, there
is a set, and no set is empty. -/
def Check.Passes (b : Builder) : Check → Prop
  | .settings => b.settings.validate = .ok ()
  | .targets => ∀ sets, b.targets = some sets → sets ≠ [] ∧ ∀ set ∈ sets, set ≠ []
  | .list => ∃ list, b.list = some list
  | .collaborator c => c ∈ b.collaborators

/-- What a check finds wrong with a builder. -/
inductive Check.Finds (b : Builder) : Check → Failure → Prop where
  | settings {fault : SettingsFault} (hSettings : b.settings.validate = .error fault) :
      Finds b .settings (.configuration fault.message)
  | noSets (hTargets : b.targets = some []) :
      Finds b .targets (.configuration "protocol target list is empty")
  /-- Of several empty sets the first one is named, by its index. -/
  | emptySet {before after : List (List Protocol)}
      (hTargets : b.targets = some (before ++ [] :: after)) (hFirst : ∀ set ∈ before, set ≠ []) :
      Finds b .targets
        (.configuration ("protocol target set " ++ toString before.length ++ " is empty"))
  | list (hList : b.list = none) :
      Finds b .list (.configuration "server list store is required")
  | handshake (hGone : .handshake ∉ b.collaborators) :
      Finds b (.collaborator .handshake) (.configuration "handshake routine is required")
  | subServers (hGone : .subServers ∉ b.collaborators) :
      Finds b (.collaborator .subServers)
        (.configuration "obfuscation server factory is required")
  | environment (hGone : .environment ∉ b.collaborators) :
      Finds b (.collaborator .environment) (.configuration "network environment is required")

/-- The name under which a collaborator is missed. -/
def Collaborator.title : Collaborator → String
  | .handshake => "handshake routine"
  | .subServers => "obfuscation server factory"
  | .environment => "network environment"

/-- What a check finds wrong, as it is computed. -/
def Check.fault? (b : Builder) : Check → Option Failure
  | .settings =>
      match b.settings.validate with
      | .error fault => some (.ofSettings fault)
      | .ok () => none
  | .targets =>
      match b.targetSequence with
      | .error failure => some failure
      | .ok _ => none
  | .list => if b.list.isSome then none else some (Builder.missing "server list store")
  | .collaborator c =>
      match b.demand c c.title with
      | .error failure => some failure
      | .ok () => none

namespace Builder

variable {b c : Builder} {chance : UInt64} {installed : Installed} {failure : Failure}
  {coordinator : Coordinator}

/-! ## Single checks -/

theorem demand_eq_ok_iff {collaborator : Collaborator} {what : String} :
    b.demand collaborator what = .ok () ↔ collaborator ∈ b.collaborators := by
  unfold demand
  split <;> simp_all

theorem demand_eq_error_iff {collaborator : Collaborator} {what : String} :
    b.demand collaborator what = .error failure ↔
      collaborator ∉ b.collaborators ∧ failure = missing what := by
  unfold demand
  split <;> simp_all [eq_comm]

theorem targetSequence_eq_error_iff :
    b.targetSequence = .error failure ↔ ∃ sets fault, b.targets = some sets ∧
      TargetSequence.ofSets sets = .error fault ∧ failure = .ofTargets fault := by
  unfold targetSequence
  cases b.targets with
  | none => simp
  | some sets => cases hSets : TargetSequence.ofSets sets <;> simp [hSets, eq_comm]

theorem finds_targets_iff :
    Check.targets.Finds b failure ↔ b.targetSequence = .error failure := by
  rw [targetSequence_eq_error_iff]
  constructor
  · intro hFinds
    cases hFinds with
    | noSets hTargets =>
        exact ⟨[], .noSets, hTargets, TargetSequence.ofSets_eq_error_iff.mpr (.inl ⟨rfl, rfl⟩), rfl⟩
    | emptySet hTargets hFirst =>
        exact ⟨_, _, hTargets,
          TargetSequence.ofSets_eq_error_iff.mpr (.inr ⟨_, _, rfl, hFirst, rfl⟩), rfl⟩
  · rintro ⟨sets, fault, hTargets, hRefused, rfl⟩
    rcases TargetSequence.ofSets_eq_error_iff.mp hRefused with
      ⟨rfl, rfl⟩ | ⟨before, after, rfl, hFirst, rfl⟩
    · exact .noSets hTargets
    · exact .emptySet hTargets hFirst

theorem finds_collaborator_iff {collaborator : Collaborator} :
    (Check.collaborator collaborator).Finds b failure ↔
      b.demand collaborator collaborator.title = .error failure := by
  rw [demand_eq_error_iff]
  constructor
  · intro hFinds
    cases hFinds <;> exact ⟨‹_›, rfl⟩
  · rintro ⟨hGone, rfl⟩
    cases collaborator with
    | handshake => exact .handshake hGone
    | subServers => exact .subServers hGone
    | environment => exact .environment hGone

theorem finds_iff {check : Check} : check.Finds b failure ↔ check.fault? b = some failure := by
  cases check with
  | settings =>
      simp only [Check.fault?]
      constructor
      · rintro ⟨hSettings⟩
        rw [hSettings]
        rfl
      · intro hFault
        cases hSettings : b.settings.validate with
        | error fault =>
            rw [hSettings, Option.some.injEq] at hFault
            rw [← hFault]
            exact .settings hSettings
        | ok _ =>
            rw [hSettings] at hFault
            cases hFault
  | targets =>
      rw [finds_targets_iff, Check.fault?]
      cases b.targetSequence <;> simp
  | list =>
      simp only [Check.fault?]
      constructor
      · intro hFinds
        cases hFinds with
        | list hList => rw [hList]; rfl
      · intro hFault
        cases hList : b.list with
        | none =>
            rw [hList] at hFault
            cases hFault
            exact .list hList
        | some list =>
            rw [hList] at hFault
            cases hFault
  | collaborator c =>
      rw [finds_collaborator_iff, Check.fault?]
      cases b.demand c c.title <;> simp

theorem passes_iff {check : Check} : check.Passes b ↔ check.fault? b = none := by
  cases check with
  | settings =>
      rw [Check.Passes, Check.fault?]
      cases b.settings.validate <;> simp
  | targets =>
      rw [Check.fault?]
      constructor
      · intro hPasses
        cases hTargets : b.targetSequence with
        | ok _ => rfl
        | error failure =>
            obtain ⟨sets, fault, hGiven, hRefused, -⟩ := targetSequence_eq_error_iff.mp hTargets
            obtain ⟨hSome, hFull⟩ := hPasses sets hGiven
            let start : TargetSequence := ⟨sets, 0, hFull, List.length_pos_iff.mpr hSome⟩
            have hAccepted : TargetSequence.ofSets sets = .ok start :=
              TargetSequence.ofSets_eq_ok_iff.mpr ⟨hSome, hFull, rfl, rfl⟩
            rw [hAccepted] at hRefused
            cases hRefused
      · intro hFault sets hGiven
        cases hSets : TargetSequence.ofSets sets with
        | ok start =>
            obtain ⟨hSome, hFull, -⟩ := TargetSequence.ofSets_eq_ok_iff.mp hSets
            exact ⟨hSome, hFull⟩
        | error fault =>
            rw [targetSequence_eq_error_iff.mpr ⟨sets, fault, hGiven, hSets, rfl⟩] at hFault
            cases hFault
  | list =>
      rw [Check.Passes, Check.fault?, ← Option.isSome_iff_exists]
      simp [Option.isSome_iff_ne_none]
  | collaborator c =>
      rw [Check.Passes, Check.fault?, ← @demand_eq_ok_iff b c c.title]
      cases b.demand c c.title <;> simp

/-! ## All checks -/

/-- Every check passes. -/
def Complete (b : Builder) : Prop := ∀ check : Check, check.Passes b

/-- What the first check finds that does not pass. -/
def FirstFault (b : Builder) (failure : Failure) : Prop :=
  ∃ before check after, Check.order = before ++ check :: after ∧ check.Finds b failure ∧
    ∀ earlier ∈ before, earlier.Passes b

theorem complete_iff : b.Complete ↔ Check.order.findSome? (Check.fault? b) = none := by
  rw [List.findSome?_eq_none_iff]
  exact ⟨fun hComplete check _ => passes_iff.mp (hComplete check),
    fun hNone check => passes_iff.mpr (hNone check check.mem_order)⟩

theorem firstFault_iff :
    b.FirstFault failure ↔ Check.order.findSome? (Check.fault? b) = some failure := by
  simp only [List.findSome?_eq_some_iff, FirstFault, finds_iff, passes_iff]

/-- What the checks find decides what assembling comes to. -/
theorem assemble_checked (b : Builder) (chance : UInt64) :
    match Check.order.findSome? (Check.fault? b) with
    | some failure => b.assemble chance = .error failure
    | none => ∃ targets list, b.targetSequence = .ok targets ∧ b.list = some list ∧
        b.assemble chance = .ok {
          settings := b.settings
          targets
          list
          generator := b.generator chance
          protector := b.protector } := by
  simp only [Check.order, List.findSome?_cons, List.findSome?_nil, Check.fault?,
    Collaborator.title]
  unfold assemble
  cases b.settings.validate with
  | error fault => rfl
  | ok _ =>
  cases b.targetSequence with
  | error failure => rfl
  | ok targets =>
  cases b.list with
  | none => rfl
  | some list =>
  cases b.demand .handshake "handshake routine" with
  | error failure => rfl
  | ok _ =>
  cases b.demand .subServers "obfuscation server factory" with
  | error failure => rfl
  | ok _ =>
  cases b.demand .environment "network environment" with
  | error failure => rfl
  | ok _ => exact ⟨targets, list, rfl, rfl, rfl⟩

/-- Building fails with what the first check finds that does not pass. -/
theorem assemble_eq_error_iff : b.assemble chance = .error failure ↔ b.FirstFault failure := by
  have hChecked := b.assemble_checked chance
  rw [firstFault_iff]
  cases hFault : Check.order.findSome? (Check.fault? b) with
  | none =>
      rw [hFault] at hChecked
      obtain ⟨targets, list, -, -, hAssembled⟩ := hChecked
      simp [hAssembled]
  | some found =>
      rw [hFault] at hChecked
      simp [hChecked]

/-- A builder without settings that work is refused for them, whatever else is wrong. -/
example : (fresh.run [.targets [[]], .change (.poolSize 0)]).assemble 7 =
    .error (.configuration "pool size must be positive") := rfl

/-- A builder is built if every check passes. -/
theorem exists_assemble_eq_ok_iff :
    (∃ coordinator, b.assemble chance = .ok coordinator) ↔ b.Complete := by
  have hChecked := b.assemble_checked chance
  rw [complete_iff]
  cases hFault : Check.order.findSome? (Check.fault? b) with
  | none =>
      rw [hFault] at hChecked
      obtain ⟨targets, list, -, -, hAssembled⟩ := hChecked
      simp [hAssembled]
  | some found =>
      rw [hFault] at hChecked
      simp [hChecked]

/-- What is put together is what was collected. -/
theorem assemble_eq_ok (hBuilt : b.assemble chance = .ok coordinator) :
    ∃ targets list, b.targetSequence = .ok targets ∧ b.list = some list ∧
      coordinator = {
        settings := b.settings
        targets
        list
        generator := b.generator chance
        protector := b.protector } := by
  have hChecked := b.assemble_checked chance
  rw [complete_iff.mp (exists_assemble_eq_ok_iff.mp ⟨coordinator, hBuilt⟩)] at hChecked
  obtain ⟨targets, list, hTargets, hList, hAssembled⟩ := hChecked
  exact ⟨targets, list, hTargets, hList, Except.ok.inj (hBuilt.symm.trans hAssembled)⟩

/-! ## Building -/

theorem build_fst (b : Builder) (chance : UInt64) (installed : Installed) :
    (b.build chance installed).1 = b.assemble chance := by
  unfold build
  cases b.assemble chance with
  | error failure => rfl
  | ok coordinator => cases b.logger <;> rfl

/-- A failure leaves the logger alone. -/
theorem build_of_error (hFailed : b.assemble chance = .error failure) :
    b.build chance installed = (.error failure, installed) := by
  rw [build, hFailed]

theorem build_of_ok (hBuilt : b.assemble chance = .ok coordinator) :
    b.build chance installed =
      (.ok coordinator, (b.logger.map installed.install).getD installed) := by
  rw [build, hBuilt]
  cases b.logger <;> rfl

/-- Only what the slots hold matters. -/
theorem build_congr (hSame : ∀ slot, b.holds slot = c.holds slot) (chance : UInt64)
    (installed : Installed) : b.build chance installed = c.build chance installed := by
  have hSettings : b.settings = c.settings :=
    Settings.eq_of_get fun setting => hSame (.setting setting)
  have hTargets : b.targets = c.targets := hSame .targets
  have hList : b.list = c.list := hSame .list
  have hDemand : b.demand = c.demand := by
    funext collaborator what
    have hHas : b.collaborators.contains collaborator = c.collaborators.contains collaborator :=
      hSame (.collaborator collaborator)
    rw [demand, demand, hHas]
  have hProtector : b.protector = c.protector := hSame .protector
  have hLogger : b.logger = c.logger := hSame .logger
  have hAssemble : b.assemble chance = c.assemble chance := by
    simp only [assemble, targetSequence, generator, hSettings, hTargets, hList, hDemand,
      hProtector]
  rw [build, build, hAssemble, hLogger]

/-- A coordinator that is built after some steps, told by the last of them that set each
thing.  The other arguments of building are a seed by chance, for when none was given,
and the logger that is installed already. -/
structure Assembled (steps : List BuilderStep) (chance : UInt64) (coordinator : Coordinator) :
    Prop where
  settings : ∀ field value,
    coordinator.settings.get field = value ↔ fresh.Leaves steps (.setting field) value
  /-- The targets that were given, from the first set on. -/
  targets : ∀ sets, fresh.Leaves steps .targets (some sets) →
    coordinator.targets.sets = sets ∧ coordinator.targets.index = 0
  standard : fresh.Leaves steps .targets none → coordinator.targets = .standard
  list : fresh.Leaves steps .list (some coordinator.list)
  protector : fresh.Leaves steps .protector coordinator.protector
  generator : coordinator.generator = .ofSeed (coordinator.settings.seed.getD chance)
  statistics : coordinator.statistics = {}

theorem assembled {steps : List BuilderStep}
    (hBuilt : (fresh.run steps).assemble chance = .ok coordinator) :
    Assembled steps chance coordinator := by
  obtain ⟨targets, list, hTargets, hList, rfl⟩ := assemble_eq_ok hBuilt
  constructor
  case settings => exact fun field value => @holds_run_iff fresh steps (.setting field) value
  case targets =>
    intro sets hGiven
    have hSets : (fresh.run steps).targets = some sets := hGiven.holds_run
    rw [targetSequence, hSets] at hTargets
    cases hStart : TargetSequence.ofSets sets with
    | ok start =>
        simp only [hStart, Except.ok.injEq] at hTargets
        rw [← hTargets]
        exact (TargetSequence.ofSets_eq_ok_iff.mp hStart).2.2
    | error fault => simp [hStart] at hTargets
  case standard =>
    intro hNone
    have hSets : (fresh.run steps).targets = none := hNone.holds_run
    rw [targetSequence, hSets] at hTargets
    exact (Except.ok.inj hTargets).symm
  case list => exact (@holds_run_iff fresh steps .list _).mp hList
  case protector => exact fresh.leaves_run steps .protector
  case generator => rfl
  case statistics => rfl

end Builder

end RelayRace
