import RelayRace.Proofs.Builder.Building

/-!
# The logger of a process that builds

Building touches the logger of the process last, after every check.  So a process
initialises its logger by asking for it, or by building with success what a logger was
given to (`Setup.Initialises`), and a building that fails is no initialisation.

A logger that is there is kept (`Setup.config_perform`).  Over all that a process does,
then, the installed logger is that of the first initialisation (`Installed.after_iff`),
and stays it whatever follows.
-/

namespace RelayRace

open Builder (fresh)

/-- What a process does about its logger: it asks for one, or it builds. -/
inductive Setup where
  | initialise (config : LogConfig)
  | build (steps : List BuilderStep) (chance : UInt64)

/-- What is installed after that. -/
def Setup.perform (installed : Installed) : Setup → Installed
  | .initialise config => installed.install config
  | .build steps chance => ((fresh.run steps).build chance installed).2

/-- What is installed in a process after all that it did since its start. -/
def Installed.after (past : List Setup) : Installed := past.foldl Setup.perform {}

theorem Installed.config_install (installed : Installed) (config : LogConfig) :
    (installed.install config).config = installed.config.or (some config) := by
  unfold install
  cases hConfig : installed.config <;> simp [hConfig]

namespace Setup

variable {setup : Setup} {config : LogConfig}

/-- The logger is initialised: it is asked for, or what it was given to is built. -/
inductive Initialises : Setup → LogConfig → Prop where
  | initialise {config : LogConfig} : Initialises (.initialise config) config
  | build {steps : List BuilderStep} {chance : UInt64} {config : LogConfig}
      (hComplete : (fresh.run steps).Complete)
      (hLogger : fresh.Leaves steps .logger (some config)) :
      Initialises (.build steps chance) config

/-- The configuration that the logger is initialised with, as it is computed. -/
def initialises? : Setup → Option LogConfig
  | .initialise config => some config
  | .build steps chance =>
      match (fresh.run steps).assemble chance with
      | .error _ => none
      | .ok _ => (fresh.run steps).logger

theorem initialises_iff : setup.Initialises config ↔ setup.initialises? = some config := by
  cases setup with
  | initialise asked =>
      constructor
      · rintro ⟨⟩
        rfl
      · rintro ⟨⟩
        exact .initialise
  | build steps chance =>
      simp only [initialises?]
      constructor
      · rintro ⟨⟩
        next hComplete hLogger =>
          obtain ⟨coordinator, hBuilt⟩ :=
            (@Builder.exists_assemble_eq_ok_iff _ chance).mpr hComplete
          rw [hBuilt]
          exact hLogger.holds_run
      · intro hLogger
        cases hBuilt : (fresh.run steps).assemble chance with
        | error failure =>
            rw [hBuilt] at hLogger
            cases hLogger
        | ok coordinator =>
            rw [hBuilt] at hLogger
            exact .build (Builder.exists_assemble_eq_ok_iff.mp ⟨coordinator, hBuilt⟩)
              ((@Builder.holds_run_iff fresh steps .logger _).mp hLogger)

/-- A logger that is there is kept.  Where there is none, an initialisation installs
one. -/
theorem config_perform (installed : Installed) (setup : Setup) :
    (setup.perform installed).config = installed.config.or setup.initialises? := by
  cases setup with
  | initialise config => exact installed.config_install config
  | build steps chance =>
      simp only [perform, initialises?]
      cases hBuilt : (fresh.run steps).assemble chance with
      | error failure => rw [Builder.build_of_error hBuilt, Option.or_none]
      | ok coordinator =>
          rw [Builder.build_of_ok hBuilt]
          cases (fresh.run steps).logger with
          | none => exact Option.or_none.symm
          | some config => exact installed.config_install config

/-- The first initialisation among some doings. -/
def FirstInitialised (past : List Setup) (config : LogConfig) : Prop :=
  ∃ before setup after, past = before ++ setup :: after ∧ setup.Initialises config ∧
    ∀ earlier ∈ before, ∀ other, ¬ earlier.Initialises other

theorem firstInitialised_iff {past : List Setup} :
    FirstInitialised past config ↔ past.findSome? initialises? = some config := by
  simp only [List.findSome?_eq_some_iff, FirstInitialised, initialises_iff,
    Option.eq_none_iff_forall_ne_some, ne_eq]

end Setup

namespace Installed

theorem config_foldl (installed : Installed) (past : List Setup) :
    (past.foldl Setup.perform installed).config =
      installed.config.or (past.findSome? Setup.initialises?) := by
  induction past generalizing installed with
  | nil => exact Option.or_none.symm
  | cons setup past ih =>
      rw [List.foldl_cons, ih, Setup.config_perform, List.findSome?_cons]
      cases installed.config <;> cases setup.initialises? <;> rfl

theorem config_after (past : List Setup) :
    (after past).config = past.findSome? Setup.initialises? := by
  rw [after, config_foldl, Option.none_or]

/-- The installed logger is that of the first initialisation there was. -/
theorem after_iff {past : List Setup} {config : LogConfig} :
    (after past).config = some config ↔ Setup.FirstInitialised past config := by
  rw [config_after, Setup.firstInitialised_iff]

/-- What has been installed stays, whatever is done later. -/
theorem after_append {past : List Setup} {config : LogConfig}
    (hPast : (after past).config = some config) (later : List Setup) :
    (after (past ++ later)).config = some config := by
  rw [config_after] at hPast
  rw [config_after, List.findSome?_append, hPast, Option.some_or]

/-- After an initialisation a logger is installed, be it that one or an earlier one. -/
theorem exists_after_initialised {setup : Setup} {config : LogConfig}
    (hHere : setup.Initialises config) (past : List Setup) :
    ∃ first, (after (past ++ [setup])).config = some first := by
  rw [config_after, List.findSome?_append, List.findSome?_singleton, Setup.initialises_iff.mp hHere]
  cases past.findSome? Setup.initialises? with
  | none => exact ⟨config, rfl⟩
  | some earlier => exact ⟨earlier, rfl⟩

end Installed

/-! ## Building after any steps -/

/-- What may be relied on when a selector is built after some steps, whatever seed
chance offers and whatever logger is installed. -/
structure BuiltFrom (steps : List BuilderStep) : Prop where
  /-- In every slot the last step that sets it counts. -/
  holds : ∀ slot value, (fresh.run steps).holds slot = value ↔ fresh.Leaves steps slot value
  /-- So it does in the coordinator. -/
  assembled : ∀ chance installed coordinator,
    ((fresh.run steps).build chance installed).1 = .ok coordinator →
      Builder.Assembled steps chance coordinator
  /-- Steps that leave the same in every slot are built alike. -/
  settled : ∀ other, (∀ slot, (fresh.run other).holds slot = (fresh.run steps).holds slot) →
    ∀ chance installed,
      (fresh.run other).build chance installed = (fresh.run steps).build chance installed
  /-- So are steps of which two in a row that set nothing in common change places. -/
  swapped : ∀ before first second after, steps = before ++ first :: second :: after →
    first.Apart second → ∀ chance installed,
      (fresh.run (before ++ second :: first :: after)).build chance installed =
        (fresh.run steps).build chance installed
  succeeds_iff : ∀ chance installed,
    (∃ coordinator, ((fresh.run steps).build chance installed).1 = .ok coordinator) ↔
      (fresh.run steps).Complete
  fails_iff : ∀ chance installed failure,
    ((fresh.run steps).build chance installed).1 = .error failure ↔
      (fresh.run steps).FirstFault failure
  /-- A failure leaves the logger as it was. -/
  untouched : ∀ chance installed failure,
    ((fresh.run steps).build chance installed).1 = .error failure →
      ((fresh.run steps).build chance installed).2 = installed
  /-- So does a success if no step gave a logger. -/
  quiet : fresh.Leaves steps .logger none → ∀ chance installed,
    ((fresh.run steps).build chance installed).2 = installed
  /-- If one did, the logger after a success is that of the first initialisation in the
  process, this one counted, and it is never replaced. -/
  logged : ∀ config, fresh.Leaves steps .logger (some config) → ∀ past chance coordinator,
    ((fresh.run steps).build chance (.after past)).1 = .ok coordinator →
      ∃ first, Setup.FirstInitialised (past ++ [.build steps chance]) first ∧
        ((fresh.run steps).build chance (.after past)).2.config = some first ∧
        ∀ later, (Installed.after (past ++ [.build steps chance] ++ later)).config = some first

/-- Whatever steps are taken, in any order and number: what is built is told by the last
step that set each thing, what is refused by the first check that does not pass, and
nothing outside is touched unless all of them do. -/
theorem built_from_last_steps (steps : List BuilderStep) : BuiltFrom steps := by
  constructor
  case holds => exact fun slot value => Builder.holds_run_iff
  case assembled =>
    intro chance installed coordinator hBuilt
    rw [Builder.build_fst] at hBuilt
    exact Builder.assembled hBuilt
  case settled => exact fun other hSame => Builder.build_congr hSame
  case swapped =>
    rintro before first second after rfl hApart
    exact Builder.build_congr fun slot => (Builder.holds_run_swap hApart before after slot).symm
  case succeeds_iff =>
    intro chance installed
    rw [Builder.build_fst, Builder.exists_assemble_eq_ok_iff]
  case fails_iff =>
    intro chance installed failure
    rw [Builder.build_fst, Builder.assemble_eq_error_iff]
  case untouched =>
    intro chance installed failure hFailed
    rw [Builder.build_fst] at hFailed
    rw [Builder.build_of_error hFailed]
  case quiet =>
    intro hNone chance installed
    have hLogger : (fresh.run steps).logger = none := hNone.holds_run
    cases hBuilt : (fresh.run steps).assemble chance with
    | error failure => rw [Builder.build_of_error hBuilt]
    | ok coordinator => rw [Builder.build_of_ok hBuilt, hLogger]; rfl
  case logged =>
    intro config hLogger past chance coordinator hBuilt
    rw [Builder.build_fst] at hBuilt
    have hComplete := Builder.exists_assemble_eq_ok_iff.mp ⟨coordinator, hBuilt⟩
    have hHere : (Setup.build steps chance).Initialises config := .build hComplete hLogger
    obtain ⟨first, hFirst⟩ := Installed.exists_after_initialised hHere past
    have hAfter : Installed.after (past ++ [.build steps chance]) =
        ((fresh.run steps).build chance (.after past)).2 := List.foldl_append
    exact ⟨first, Installed.after_iff.mp hFirst, hAfter ▸ hFirst, Installed.after_append hFirst⟩

end RelayRace
