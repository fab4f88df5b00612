import RelayRace.Logging
import RelayRace.Selection.Round

/-!
# Building a selector

A builder collects settings, targets and collaborators in any order; of two
steps that set the same thing the later one counts. Building checks what was
collected in a fixed order, and only after everything was found good does it
touch the one thing outside itself, the logger of the process.
-/

namespace RelayRace

/-! ## Changing settings -/

/-- A change of the settings. -/
inductive SettingsStep where
  | poolSize (size : Nat)
  | polls (connect results : Duration)
  | grace (duration : Duration)
  | maxRound (duration : Duration)
  | backoff (shortest longest : Duration)
  | connectivityPoll (duration : Duration)
  | sufficient (capabilities : List Capability)
  | seed (seed : UInt64)
  deriving DecidableEq, Repr

/-- Makes a change. -/
def Settings.apply (s : Settings) : SettingsStep → Settings
  | .poolSize size => { s with poolSize := size }
  | .polls connect results => s.withPolls connect results
  | .grace duration => { s with grace := duration }
  | .maxRound duration => { s with maxRound := duration }
  | .backoff shortest longest => s.withBackoff shortest longest
  | .connectivityPoll duration => { s with connectivityPoll := duration }
  | .sufficient capabilities => { s with sufficient := capabilities }
  | .seed seed => { s with seed := some seed }

/-! ## Builders -/

/-- A collaborator of which only its presence matters to building. -/
inductive Collaborator where
  | handshake
  | subServers
  | environment
  deriving DecidableEq, Repr

/-- What has been collected. -/
structure Builder where
  settings : Settings := {}
  targets : Option (List (List Protocol)) := none
  list : Option ServerList := none
  collaborators : List Collaborator := []
  protector : Option Protector := none
  logger : Option LogConfig := none

/-- A step of building. -/
inductive BuilderStep where
  | change (step : SettingsStep)
  /-- Replaces all settings. -/
  | settings (settings : Settings)
  | targets (sets : List (List Protocol))
  | list (list : ServerList)
  | collaborator (collaborator : Collaborator)
  | protector (protector : Protector)
  | logger (config : LogConfig)

namespace Builder

/-- Takes a step. -/
def apply (b : Builder) : BuilderStep → Builder
  | .change step => { b with settings := b.settings.apply step }
  | .settings settings => { b with settings }
  | .targets sets => { b with targets := some sets }
  | .list list => { b with list := some list }
  | .collaborator c => { b with collaborators := c :: b.collaborators }
  | .protector protector => { b with protector := some protector }
  | .logger config => { b with logger := some config }

/-- Takes several steps. -/
def run (b : Builder) (steps : List BuilderStep) : Builder := steps.foldl apply b

/-- The failure of a builder that lacks something. -/
def missing (what : String) : Failure := .configuration (what ++ " is required")

/-- The target sequence that was asked for, or the standard one. -/
def targetSequence (b : Builder) : Except Failure TargetSequence :=
  match b.targets with
  | none => .ok .standard
  | some sets =>
      match TargetSequence.ofSets sets with
      | .ok targets => .ok targets
      | .error fault => .error (Failure.ofTargets fault)

/-- Refuses a builder that lacks a collaborator. -/
def demand (b : Builder) (c : Collaborator) (what : String) : Except Failure Unit :=
  if b.collaborators.contains c then .ok () else .error (missing what)

/-- The generator of the selector: the one of the seed, or one by chance. -/
def generator (b : Builder) (chance : UInt64) : Generator :=
  .ofSeed (b.settings.seed.getD chance)

/-- Checks everything in order and puts the coordinator together. -/
def assemble (b : Builder) (chance : UInt64) : Except Failure Coordinator :=
  match b.settings.validate with
  | .error fault => .error (Failure.ofSettings fault)
  | .ok () =>
      match b.targetSequence, b.list with
      | .error failure, _ => .error failure
      | .ok _, none => .error (missing "server list store")
      | .ok targets, some list =>
          match b.demand .handshake "handshake routine",
              b.demand .subServers "obfuscation server factory",
              b.demand .environment "network environment" with
          | .error failure, _, _ => .error failure
          | _, .error failure, _ => .error failure
          | _, _, .error failure => .error failure
          | .ok (), .ok (), .ok () =>
              .ok {
                settings := b.settings
                targets
                list
                generator := b.generator chance
                protector := b.protector }

/-- Builds a coordinator, and installs the logger that was asked for if that
succeeds. -/
def build (b : Builder) (chance : UInt64) (installed : Installed) :
    Except Failure Coordinator × Installed :=
  match b.assemble chance with
  | .error failure => (.error failure, installed)
  | .ok coordinator =>
      match b.logger with
      | some config => (.ok coordinator, installed.install config)
      | none => (.ok coordinator, installed)

end Builder

end RelayRace
