import Mathlib.Data.List.Induction
import RelayRace.Builder

/-!
# What the steps of building leave behind

What a builder collects is a fixed number of slots, one for each setting and one for
each other thing that a step can set.  A step sets some of them (`BuilderStep.sets?`)
and leaves the others alone: that is all there is to say of one step
(`Builder.holds_apply`).  So after any steps a slot holds what the last step that sets
it put there, or what it held before (`Builder.holds_run_iff`), and two steps in a row
that set no slot in common may change places (`Builder.holds_run_swap`).

Collaborators of the same kind are not told apart, so their slots hold whether there
is one.
-/

namespace RelayRace

/-! ## Settings one by one -/

/-- A field of the settings. -/
inductive Setting where
  | poolSize
  | connectPoll
  | resultsPoll
  | grace
  | maxRound
  | backoffMin
  | backoffMax
  | connectivityPoll
  | sufficient
  | seed
  deriving DecidableEq, Repr

/-- Every field. -/
def Setting.all : List Setting :=
  [.poolSize, .connectPoll, .resultsPoll, .grace, .maxRound, .backoffMin, .backoffMax,
    .connectivityPoll, .sufficient, .seed]

/-- What is written in a field. -/
abbrev Setting.Value : Setting → Type
  | .poolSize => Nat
  | .connectPoll | .resultsPoll | .grace | .maxRound | .backoffMin | .backoffMax
  | .connectivityPoll => Duration
  | .sufficient => List Capability
  | .seed => Option UInt64

/-- Reads one field. -/
def Settings.get (s : Settings) : (setting : Setting) → setting.Value
  | .poolSize => s.poolSize
  | .connectPoll => s.connectPoll
  | .resultsPoll => s.resultsPoll
  | .grace => s.grace
  | .maxRound => s.maxRound
  | .backoffMin => s.backoffMin
  | .backoffMax => s.backoffMax
  | .connectivityPoll => s.connectivityPoll
  | .sufficient => s.sufficient
  | .seed => s.seed

theorem Settings.eq_of_get {s t : Settings} (hGet : ∀ setting, s.get setting = t.get setting) :
    s = t := by
  cases s
  cases t
  simp only [Settings.mk.injEq]
  exact ⟨hGet .poolSize, hGet .connectPoll, hGet .resultsPoll, hGet .grace, hGet .maxRound,
    hGet .backoffMin, hGet .backoffMax, hGet .connectivityPoll, hGet .sufficient, hGet .seed⟩

/-- The value that a change gives to a field, if it sets that field. -/
def SettingsStep.sets? : SettingsStep → (setting : Setting) → Option setting.Value
  | .poolSize size, .poolSize => some size
  | .polls connect _, .connectPoll => some connect
  | .polls _ results, .resultsPoll => some results
  | .grace duration, .grace => some duration
  | .maxRound duration, .maxRound => some duration
  | .backoff shortest _, .backoffMin => some shortest
  | .backoff _ longest, .backoffMax => some longest
  | .connectivityPoll duration, .connectivityPoll => some duration
  | .sufficient capabilities, .sufficient => some capabilities
  | .seed given, .seed => some (some given)
  | _, _ => none

theorem Settings.get_apply (s : Settings) (step : SettingsStep) (setting : Setting) :
    (s.apply step).get setting = (step.sets? setting).getD (s.get setting) := by
  cases step <;> cases setting <;> rfl

/-! ## Slots -/

/-- A place of a builder that steps can set. -/
inductive Slot where
  | setting (setting : Setting)
  | targets
  | list
  | collaborator (collaborator : Collaborator)
  | protector
  | logger
  deriving DecidableEq, Repr

/-- Every slot. -/
def Slot.all : List Slot :=
  Setting.all.map .setting ++ [.targets, .list, .collaborator .handshake,
    .collaborator .subServers, .collaborator .environment, .protector, .logger]

theorem Slot.mem_all (slot : Slot) : slot ∈ Slot.all := by
  cases slot with
  | setting field => cases field <;> decide
  | collaborator c => cases c <;> decide
  | targets | list | protector | logger => decide

/-- What a slot holds.  All but the settings may be missing. -/
abbrev Slot.Value : Slot → Type
  | .setting field => field.Value
  | .targets => Option (List (List Protocol))
  | .list => Option ServerList
  | .collaborator _ => Bool
  | .protector => Option Protector
  | .logger => Option LogConfig

/-- The value that a step gives to a slot, if it sets that slot.  Replacing the
settings sets every one of them. -/
def BuilderStep.sets? : BuilderStep → (slot : Slot) → Option slot.Value
  | .change step, .setting field => step.sets? field
  | .settings given, .setting field => some (given.get field)
  | .targets sets, .targets => some (some sets)
  | .list given, .list => some (some given)
  | .collaborator given, .collaborator c => if given = c then some true else none
  | .protector given, .protector => some (some given)
  | .logger config, .logger => some (some config)
  | _, _ => none

/-- No slot is set by both steps. -/
def BuilderStep.Apart (first second : BuilderStep) : Prop :=
  ∀ slot, first.sets? slot = none ∨ second.sets? slot = none

instance (first second : BuilderStep) : Decidable (first.Apart second) :=
  decidable_of_iff (∀ slot ∈ Slot.all, (first.sets? slot).isNone ∨ (second.sets? slot).isNone) <| by
    simp only [BuilderStep.Apart, Option.isNone_iff_eq_none, Slot.mem_all, forall_const]

/-- Replacing all settings is apart from giving targets, but not from changing one of
the settings. -/
example : (BuilderStep.settings {}).Apart (.targets [[.ossh]]) ∧
    ¬ (BuilderStep.settings {}).Apart (.change (.poolSize 4)) := by decide

namespace Builder

variable {b c : Builder} {steps : List BuilderStep} {slot : Slot} {value : slot.Value}

/-- Reads one slot. -/
def holds (b : Builder) : (slot : Slot) → slot.Value
  | .setting field => b.settings.get field
  | .targets => b.targets
  | .list => b.list
  | .collaborator c => b.collaborators.contains c
  | .protector => b.protector
  | .logger => b.logger

/-- The builder that no step has been taken of. -/
def fresh : Builder := {}

/-! ## One step -/

theorem holds_apply (b : Builder) (step : BuilderStep) (slot : Slot) :
    (b.apply step).holds slot = (step.sets? slot).getD (b.holds slot) := by
  cases step with
  | change step =>
      cases slot with
      | setting field => exact b.settings.get_apply step field
      | _ => rfl
  | collaborator given =>
      cases slot with
      | collaborator c =>
          by_cases hGiven : given = c
          · simp [holds, apply, BuilderStep.sets?, hGiven]
          · simp [holds, apply, BuilderStep.sets?, hGiven, Ne.symm hGiven]
      | _ => rfl
  | settings _ | targets _ | list _ | protector _ | logger _ => cases slot <;> rfl

theorem holds_apply_of_none {step : BuilderStep} (hNone : step.sets? slot = none) :
    (b.apply step).holds slot = b.holds slot := by
  rw [holds_apply, hNone, Option.getD_none]

theorem holds_apply_of_some {step : BuilderStep} (hSome : step.sets? slot = some value) :
    (b.apply step).holds slot = value := by
  rw [holds_apply, hSome, Option.getD_some]

theorem holds_apply_swap {first second : BuilderStep} (hApart : first.Apart second)
    (slot : Slot) :
    ((b.apply first).apply second).holds slot = ((b.apply second).apply first).holds slot := by
  rcases hApart slot with hNone | hNone
  · rw [holds_apply _ second, holds_apply_of_none hNone, holds_apply_of_none hNone, holds_apply]
  · rw [holds_apply_of_none hNone, holds_apply, holds_apply _ first, holds_apply_of_none hNone]

/-! ## Any number of steps -/

theorem run_append (b : Builder) (before after : List BuilderStep) :
    b.run (before ++ after) = (b.run before).run after :=
  List.foldl_append

/-- Steps that do not set a slot leave it alone. -/
theorem holds_run_of_none (hNone : ∀ step ∈ steps, step.sets? slot = none) :
    (b.run steps).holds slot = b.holds slot := by
  induction steps generalizing b with
  | nil => rfl
  | cons step steps ih =>
      have hRest := ih (b := b.apply step) fun later hLater => hNone later (.tail _ hLater)
      exact hRest.trans (holds_apply_of_none (hNone step (.head _)))

/-- Builders with the same in every slot have it still after the same steps. -/
theorem holds_run_congr (hSame : ∀ slot, b.holds slot = c.holds slot)
    (steps : List BuilderStep) (slot : Slot) :
    (b.run steps).holds slot = (c.run steps).holds slot := by
  induction steps generalizing b c with
  | nil => exact hSame slot
  | cons step steps ih =>
      refine ih fun slot => ?_
      rw [holds_apply, holds_apply, hSame]

theorem holds_run_swap {first second : BuilderStep} (hApart : first.Apart second)
    (before after : List BuilderStep) (slot : Slot) :
    (b.run (before ++ first :: second :: after)).holds slot =
      (b.run (before ++ second :: first :: after)).holds slot := by
  rw [run_append, run_append]
  exact holds_run_congr (holds_apply_swap hApart) after slot

/-- What some steps leave in a slot: the value of the last of them that sets it, or
what was there before if none does. -/
inductive Leaves (b : Builder) (steps : List BuilderStep) (slot : Slot) : slot.Value → Prop where
  | untouched (hNone : ∀ step ∈ steps, step.sets? slot = none) :
      Leaves b steps slot (b.holds slot)
  | last {before after : List BuilderStep} {step : BuilderStep} {value : slot.Value}
      (hSplit : steps = before ++ step :: after) (hSets : step.sets? slot = some value)
      (hLater : ∀ later ∈ after, later.sets? slot = none) :
      Leaves b steps slot value

theorem Leaves.snoc {step : BuilderStep} (hLeaves : b.Leaves steps slot value)
    (hNone : step.sets? slot = none) : b.Leaves (steps ++ [step]) slot value := by
  cases hLeaves with
  | untouched hBefore =>
      refine .untouched fun any hAny => ?_
      rcases List.mem_append.mp hAny with hAny | hAny
      · exact hBefore any hAny
      · rwa [List.mem_singleton.mp hAny]
  | @last before after setter _ hSplit hSets hLater =>
      have hSnoc : steps ++ [step] = before ++ setter :: (after ++ [step]) := by
        rw [hSplit, List.append_assoc, List.cons_append]
      refine .last hSnoc hSets fun later hMem => ?_
      rcases List.mem_append.mp hMem with hMem | hMem
      · exact hLater later hMem
      · rwa [List.mem_singleton.mp hMem]

theorem leaves_run (b : Builder) (steps : List BuilderStep) (slot : Slot) :
    b.Leaves steps slot ((b.run steps).holds slot) := by
  induction steps using List.reverseRecOn with
  | nil => exact .untouched fun _ hStep => absurd hStep List.not_mem_nil
  | append_singleton steps step ih =>
      rw [run_append]
      show b.Leaves (steps ++ [step]) slot (((b.run steps).apply step).holds slot)
      cases hSets : step.sets? slot with
      | none =>
          rw [holds_apply_of_none hSets]
          exact ih.snoc hSets
      | some value =>
          rw [holds_apply_of_some hSets]
          exact .last rfl hSets fun _ hStep => absurd hStep List.not_mem_nil

theorem Leaves.holds_run (hLeaves : b.Leaves steps slot value) :
    (b.run steps).holds slot = value := by
  cases hLeaves with
  | untouched hNone => exact holds_run_of_none hNone
  | last hSplit hSets hLater =>
      subst hSplit
      rw [run_append]
      exact (holds_run_of_none hLater).trans (holds_apply_of_some hSets)

/-- Of the steps that set a slot, the last one counts. -/
theorem holds_run_iff : (b.run steps).holds slot = value ↔ b.Leaves steps slot value := by
  constructor
  · rintro rfl
    exact b.leaves_run steps slot
  · exact Leaves.holds_run

end Builder

end RelayRace
