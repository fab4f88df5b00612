import RelayRace.Proofs.Schedule
import RelayRace.Proofs.Selection.CallStep

/-!
# When one loop goes at a time

Between the look at the mark and the start of its loop a run takes three steps,
and nothing keeps another run from taking the same steps in between: both then
start a loop.  Nor does an abort wait for a run that has looked at the mark and
not yet set it.  So callers are safe only as far as their starts lie apart.

As long as no two runs are starting up at the same time, at most one loop goes,
and the mark is set exactly while a loop goes or is about to be started
(`Exclusive`).  An abort that returns has then seen the last of every loop that
was started before.  It has seen the last of all runs that were called before it
only if none of them was still to start its loop.
-/

namespace RelayRace

/-! ## Counting calls -/

theorem countP_set_add {α : Type} (test : α → Bool) {entries : List α} {place : Nat} {old : α}
    (new : α) (hOld : entries[place]? = some old) :
    (entries.set place new).countP test + (if test old then 1 else 0) =
      entries.countP test + (if test new then 1 else 0) := by
  induction entries generalizing place with
  | nil => cases hOld
  | cons entry rest ih =>
      cases place with
      | zero =>
          cases hOld
          simp only [List.set_cons_zero, List.countP_cons]
          omega
      | succ place =>
          have hRest := ih hOld
          simp only [List.set_cons_succ, List.countP_cons]
          omega

/-- Whether a call is a run that has looked at the mark and not yet started its
loop. -/
@[simp] def CallStage.isStartingUp : CallStage → Bool
  | .lowering | .marking | .starting => true
  | .raising | .awaiting | .joined _ | .returned | .dropped => false

/-- Whether a call is a run that has set the mark and not yet started its loop. -/
@[simp] def CallStage.hasMarked : CallStage → Bool
  | .starting => true
  | .raising | .awaiting | .lowering | .marking | .joined _ | .returned | .dropped => false

/-- Whether a call has its start behind it. -/
@[simp] def CallStage.isPastStart : CallStage → Bool
  | .joined _ | .returned | .dropped => true
  | .raising | .awaiting | .lowering | .marking | .starting => false

namespace Calls

/-- How many runs are starting up. -/
def startingUp (s : Calls) : Nat := s.calls.countP fun call => call.stage.isStartingUp

/-- How many runs have set the mark and not yet started their loop. -/
def aboutToStart (s : Calls) : Nat := s.calls.countP fun call => call.stage.hasMarked

/-- How many loops are going. -/
def going (s : Calls) : Nat := s.loops.count true

variable {s after : Calls} {event : CallEvent} {number : Nat} {call : Call}

/-- How the counts change when a call comes to another stage. -/
theorem counts_put {moved : Calls} (stage : CallStage) (hCall : s.calls[number]? = some call)
    (hCalls : moved.calls = s.calls.set number { call with stage }) :
    moved.startingUp + (if call.stage.isStartingUp then 1 else 0) =
        s.startingUp + (if stage.isStartingUp then 1 else 0) ∧
      moved.aboutToStart + (if call.stage.hasMarked then 1 else 0) =
        s.aboutToStart + (if stage.hasMarked then 1 else 0) := by
  rw [startingUp, aboutToStart, hCalls]
  exact ⟨countP_set_add (fun call : Call => call.stage.isStartingUp) _ hCall,
    countP_set_add (fun call : Call => call.stage.hasMarked) _ hCall⟩

theorem aboutToStart_le (s : Calls) : s.aboutToStart ≤ s.startingUp := by
  refine List.countP_mono_left fun call _ hMarked => ?_
  cases hStage : call.stage with
  | starting => rfl
  | raising | awaiting | lowering | marking | joined _ | returned | dropped =>
      rw [hStage] at hMarked
      cases hMarked

theorem going_exit {loop : Nat} (hLive : s.loops.getD loop false = true) :
    (s.loops.set loop false).count true + 1 = s.going := by
  have hCount := countP_set_add (· == true) false (live_iff.mp hLive)
  simpa [going, List.count] using hCount

/-! ## The law of the mark -/

/-- What callers keep whose starts lie apart. -/
structure Exclusive (s : Calls) : Prop where
  /-- A loop is going, or one run is starting up, or neither. -/
  alone : s.startingUp + s.going ≤ 1
  /-- The mark is set exactly while a loop is going or about to be started. -/
  mark : s.running = true ↔ 0 < s.aboutToStart + s.going

theorem exclusive_fresh : Exclusive {} := ⟨Nat.zero_le _, by decide⟩

/-- A call that comes to another stage keeps the law if the counts that change
with it allow it. -/
theorem exclusive_put {moved : Calls} {stage : CallStage} (hCall : s.calls[number]? = some call)
    (hCalls : moved.calls = s.calls.set number { call with stage })
    (hAlone : s.startingUp + (if stage.isStartingUp then 1 else 0) + moved.going ≤
      1 + (if call.stage.isStartingUp then 1 else 0))
    (hMark : moved.running = true ↔ (if call.stage.hasMarked then 1 else 0) <
      s.aboutToStart + (if stage.hasMarked then 1 else 0) + moved.going) : moved.Exclusive := by
  obtain ⟨hUp, hAbout⟩ := counts_put stage hCall hCalls
  refine ⟨by omega, hMark.trans ?_⟩
  omega

/-- A call that comes to another stage keeps the law if nothing that counts
changes with it. -/
theorem Exclusive.unaffected {moved : Calls} {stage : CallStage} (hExclusive : s.Exclusive)
    (hCall : s.calls[number]? = some call)
    (hCalls : moved.calls = s.calls.set number { call with stage })
    (hUp : stage.isStartingUp = call.stage.isStartingUp)
    (hMarked : stage.hasMarked = call.stage.hasMarked)
    (hLoops : moved.loops = s.loops) (hRunning : moved.running = s.running) :
    moved.Exclusive := by
  have hGoing : moved.going = s.going := by rw [going, going, hLoops]
  have hAlone := hExclusive.alone
  refine exclusive_put hCall hCalls ?_ ?_
  · rw [hUp, hGoing]
    omega
  · rw [hRunning, hMarked, hGoing]
    exact hExclusive.mark.trans (by omega)

/-- A loop that exits clears the mark, and rightly so. -/
theorem Exclusive.exit {loop : Nat} (hExclusive : s.Exclusive)
    (hLive : s.loops.getD loop false = true) :
    ({ s with loops := s.loops.set loop false, running := false } : Calls).Exclusive := by
  have hAlone := hExclusive.alone
  have hGoing := going_exit hLive
  have hLe := s.aboutToStart_le
  have hLeft : ({ s with loops := s.loops.set loop false, running := false } : Calls).going +
      1 = s.going := hGoing
  refine ⟨?_, ?_⟩
  · show s.startingUp + _ ≤ 1
    omega
  · show false = true ↔ 0 < s.aboutToStart + _
    simp only [Bool.false_eq_true, false_iff]
    omega

/-- An event that leaves at most one run starting up keeps the law. -/
theorem Exclusive.step (hExclusive : s.Exclusive) (hStep : s.step event = some after)
    (hApart : after.startingUp ≤ 1) : after.Exclusive := by
  have hAlone := hExclusive.alone
  have hMark := hExclusive.mark
  have hLe := s.aboutToStart_le
  cases stepsTo_of_step hStep with
  | called kind =>
      have hUp : ({ s with calls := s.calls ++ [{ kind := kind }] } : Calls).startingUp =
          s.startingUp := by
        simp [startingUp, CallStage.isStartingUp]
      have hAbout : ({ s with calls := s.calls ++ [{ kind := kind }] } : Calls).aboutToStart =
          s.aboutToStart := by
        simp [aboutToStart, CallStage.hasMarked]
      exact ⟨by rw [hUp]; exact hAlone, by rw [hAbout]; exact hMark⟩
  | raised hCall hStage | stopped hCall hStage | lowered hCall hStage | finished hCall hStage
  | droppedEarly hCall _ hStage | droppedLate hCall _ hStage =>
      exact hExclusive.unaffected hCall rfl (by rw [hStage]; rfl) (by rw [hStage]; rfl) rfl rfl
  | @passed number call hCall hStage hKind hIdle =>
      -- The mark is clear, so no loop is going; that nobody else is starting up is assumed.
      have hMoved : (s.put number call .lowering).calls =
          s.calls.set number { call with stage := .lowering } := rfl
      have hUp := (counts_put .lowering hCall hMoved).1
      have hNone : ¬ 0 < s.aboutToStart + s.going := by simp [← hMark, hIdle]
      refine exclusive_put hCall rfl ?_ ?_
      · simp only [hStage, CallStage.isStartingUp, if_true, Bool.false_eq_true, if_false] at hUp ⊢
        show s.startingUp + 1 + s.going ≤ 1 + 0
        omega
      · simpa [hStage, going, put] using hMark
  | marked hCall hStage =>
      refine exclusive_put hCall rfl ?_ ?_
      · simpa [hStage, going, put, Nat.add_right_comm, Nat.add_comm 1] using hAlone
      · simp only [hStage, CallStage.hasMarked, if_true, Bool.false_eq_true, if_false, true_iff]
        omega
  | started hCall hStage =>
      refine exclusive_put hCall rfl ?_ ?_
      · simpa [hStage, going, put, ← Nat.add_assoc, Nat.add_comm 1] using hAlone
      · simpa [hStage, going, put, ← Nat.add_assoc] using hMark
  | exited hLive => exact hExclusive.exit hLive
  | droppedLive hCall hKind hStage hLive =>
      exact (hExclusive.exit hLive).unaffected hCall rfl (by rw [hStage]; rfl)
        (by rw [hStage]; rfl) rfl rfl

/-! ## Callers whose starts lie apart -/

/-- At no moment of the schedule are two runs starting up. -/
def StartsApart (s : Calls) (schedule : List CallEvent) : Prop :=
  ∀ early, early <+: schedule → ∀ middle, playSchedule Calls.step s early = some middle →
    middle.startingUp ≤ 1

theorem startsApart_nil : s.StartsApart [] ↔ s.startingUp ≤ 1 := by
  constructor
  · exact fun hApart => hApart [] List.nil_prefix s rfl
  · intro hNow early hEarly middle hPlay
    cases List.prefix_nil.mp hEarly
    cases hPlay
    exact hNow

theorem startsApart_cons {rest : List CallEvent} :
    s.StartsApart (event :: rest) ↔
      s.startingUp ≤ 1 ∧ ∀ next, s.step event = some next → next.StartsApart rest := by
  constructor
  · intro hApart
    refine ⟨hApart [] List.nil_prefix s rfl, fun next hStep early hEarly middle hPlay => ?_⟩
    refine hApart (event :: early) ((List.prefix_cons_inj event).mpr hEarly) middle ?_
    rw [playSchedule_cons, hStep]
    exact hPlay
  · rintro ⟨hNow, hNext⟩ early hEarly middle hPlay
    cases early with
    | nil =>
        cases hPlay
        exact hNow
    | cons first early =>
        obtain ⟨rfl, hRest⟩ := List.cons_prefix_cons.mp hEarly
        rw [playSchedule_cons, Option.bind_eq_some_iff] at hPlay
        obtain ⟨next, hStep, hLater⟩ := hPlay
        exact hNext next hStep early hRest middle hLater

/-- Whether starts lie apart is found out by playing the schedule. -/
instance decidableStartsApart :
    (s : Calls) → (schedule : List CallEvent) → Decidable (s.StartsApart schedule)
  | _, [] => decidable_of_iff _ startsApart_nil.symm
  | s, event :: rest =>
      match hStep : s.step event with
      | none => decidable_of_iff (s.startingUp ≤ 1) (by simp [startsApart_cons, hStep])
      | some next =>
          have := decidableStartsApart next rest
          decidable_of_iff (s.startingUp ≤ 1 ∧ next.StartsApart rest)
            (by simp [startsApart_cons, hStep])

theorem Exclusive.play {schedule : List CallEvent} {t : Calls} (hExclusive : s.Exclusive)
    (hApart : s.StartsApart schedule) (hPlay : playSchedule Calls.step s schedule = some t) :
    t.Exclusive := by
  induction schedule generalizing s with
  | nil =>
      cases hPlay
      exact hExclusive
  | cons event rest ih =>
      rw [playSchedule_cons, Option.bind_eq_some_iff] at hPlay
      obtain ⟨next, hStep, hRest⟩ := hPlay
      have hNext := (startsApart_cons.mp hApart).2 next hStep
      have hNow : next.startingUp ≤ 1 := hNext [] List.nil_prefix next rfl
      exact ih (hExclusive.step hStep hNow) hNext hRest

end Calls

end RelayRace
