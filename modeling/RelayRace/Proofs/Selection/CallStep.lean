import RelayRace.Selection.Calls

/-!
# What an event does to a selector with callers

Every step of a call depends on its stage alone, and only the step off the wait
looks at what the callers share.  `Calls.StepsTo` lists the steps one by one;
whatever is said about the steps of callers is derived from it.

Two readings of the list serve most uses: at most one call comes to another
stage, and `CallStage.Follows` says to which one; and a loop that has exited
stays so.
-/

namespace RelayRace

/-- The stages that may follow a stage of a call while so many loops have been
started. -/
inductive CallStage.Follows (kind : CallKind) (loops : Nat) : CallStage → CallStage → Prop where
  | raise : Follows kind loops .raising .awaiting
  | pass : kind = .run → Follows kind loops .awaiting .lowering
  | stop : kind = .abort → Follows kind loops .awaiting .returned
  | lower : Follows kind loops .lowering .marking
  | mark : Follows kind loops .marking .starting
  | start : Follows kind loops .starting (.joined loops)
  | finish {loop : Nat} : Follows kind loops (.joined loop) .returned
  | leave : kind = .run → Follows kind loops .awaiting .dropped
  | leaveLoop {loop : Nat} : Follows kind loops (.joined loop) .dropped

namespace Calls

variable {s after : Calls} {event : CallEvent}

/-- Everything that one event can make of a selector with callers. -/
inductive StepsTo (s : Calls) : CallEvent → Calls → Prop where
  /-- Somebody calls. -/
  | called (kind : CallKind) :
      StepsTo s (.call kind) { s with calls := s.calls ++ [{ kind := kind }] }
  /-- A call raises the flag. -/
  | raised {number : Nat} {call : Call} :
      s.calls[number]? = some call → call.stage = .raising →
      StepsTo s (.advance number) { s.put number call .awaiting with abort := true }
  /-- A run finds that no loop is going. -/
  | passed {number : Nat} {call : Call} :
      s.calls[number]? = some call → call.stage = .awaiting → call.kind = .run →
      s.running = false → StepsTo s (.advance number) (s.put number call .lowering)
  /-- An abort finds that no loop is going, and returns. -/
  | stopped {number : Nat} {call : Call} :
      s.calls[number]? = some call → call.stage = .awaiting → call.kind = .abort →
      s.running = false → StepsTo s (.advance number) (s.put number call .returned)
  /-- A run lowers the flag. -/
  | lowered {number : Nat} {call : Call} :
      s.calls[number]? = some call → call.stage = .lowering →
      StepsTo s (.advance number) { s.put number call .marking with abort := false }
  /-- A run marks the selector as running. -/
  | marked {number : Nat} {call : Call} :
      s.calls[number]? = some call → call.stage = .marking →
      StepsTo s (.advance number) { s.put number call .starting with running := true }
  /-- A run starts its loop. -/
  | started {number : Nat} {call : Call} :
      s.calls[number]? = some call → call.stage = .starting →
      StepsTo s (.advance number)
        { s.put number call (.joined s.loops.length) with loops := s.loops ++ [true] }
  /-- A run returns, since its loop has exited. -/
  | finished {number loop : Nat} {call : Call} :
      s.calls[number]? = some call → call.stage = .joined loop →
      s.loops.getD loop false = false →
      StepsTo s (.advance number) (s.put number call .returned)
  /-- A loop exits. -/
  | exited {loop : Nat} :
      s.loops.getD loop false = true →
      StepsTo s (.exit loop) { s with loops := s.loops.set loop false, running := false }
  /-- A run is dropped that waits for its turn. -/
  | droppedEarly {number : Nat} {call : Call} :
      s.calls[number]? = some call → call.kind = .run → call.stage = .awaiting →
      StepsTo s (.drop number) (s.put number call .dropped)
  /-- A run is dropped, and its loop is ended with it. -/
  | droppedLive {number loop : Nat} {call : Call} :
      s.calls[number]? = some call → call.kind = .run → call.stage = .joined loop →
      s.loops.getD loop false = true →
      StepsTo s (.drop number)
        ({ s with loops := s.loops.set loop false, running := false }.put number call .dropped)
  /-- A run is dropped whose loop has exited. -/
  | droppedLate {number loop : Nat} {call : Call} :
      s.calls[number]? = some call → call.kind = .run → call.stage = .joined loop →
      s.loops.getD loop false = false →
      StepsTo s (.drop number) (s.put number call .dropped)

theorem stepsTo_of_advance {number : Nat} {call : Call} (hCall : s.calls[number]? = some call)
    (hStep : s.advance number call = some after) : StepsTo s (.advance number) after := by
  unfold advance at hStep
  split at hStep
  case h_1 hStage =>
      cases hStep
      exact .raised hCall hStage
  case h_2 hStage =>
      split at hStep
      · cases hStep
      · rename_i hIdle
        have hRunning : s.running = false := by simpa using hIdle
        cases hKind : call.kind with
        | run =>
            rw [hKind] at hStep
            cases hStep
            exact .passed hCall hStage hKind hRunning
        | abort =>
            rw [hKind] at hStep
            cases hStep
            exact .stopped hCall hStage hKind hRunning
  case h_3 hStage =>
      cases hStep
      exact .lowered hCall hStage
  case h_4 hStage =>
      cases hStep
      exact .marked hCall hStage
  case h_5 hStage =>
      cases hStep
      exact .started hCall hStage
  case h_6 loop hStage =>
      split at hStep
      · cases hStep
      · rename_i hGone
        cases hStep
        exact .finished hCall hStage (by simpa using hGone)
  all_goals cases hStep

theorem stepsTo_of_drop {number : Nat} (hStep : s.step (.drop number) = some after) :
    StepsTo s (.drop number) after := by
  simp only [step] at hStep
  split at hStep
  · rename_i call hCall
    split at hStep
    · rename_i loop hKind hStage
      by_cases hLive : s.loops.getD loop false = true
      · simp only [exitLoop, hLive, if_true, Option.getD_some, Option.some.injEq] at hStep
        cases hStep
        exact .droppedLive hCall hKind hStage hLive
      · simp only [exitLoop, hLive, Bool.false_eq_true, if_false, Option.getD_none,
          Option.some.injEq] at hStep
        cases hStep
        exact .droppedLate hCall hKind hStage (by simpa using hLive)
    · rename_i hKind hStage
      cases hStep
      exact .droppedEarly hCall hKind hStage
    · cases hStep
  · cases hStep

theorem stepsTo_of_step (hStep : s.step event = some after) : StepsTo s event after := by
  cases event with
  | call kind =>
      cases hStep
      exact .called kind
  | advance number =>
      simp only [step] at hStep
      split at hStep
      · rename_i call hCall
        exact stepsTo_of_advance hCall hStep
      · cases hStep
  | exit loop =>
      simp only [step, exitLoop] at hStep
      split at hStep
      · rename_i hLive
        cases hStep
        exact .exited hLive
      · cases hStep
  | drop number => exact stepsTo_of_drop hStep

/-! ## What becomes of calls and loops -/

/-- A loop is going if the list says so; a loop that was never started is not. -/
theorem live_iff {loops : List Bool} {loop : Nat} :
    loops.getD loop false = true ↔ loops[loop]? = some true := by
  rw [List.getD_eq_getElem?_getD]
  cases loops[loop]? <;> simp

/-- An entry of a list with one more at its end. -/
theorem entry_of_append_single {α : Type} {entries : List α} {last entry : α} {place : Nat}
    (hEntry : (entries ++ [last])[place]? = some entry) :
    entries[place]? = some entry ∨ (place = entries.length ∧ entry = last) := by
  rw [List.getElem?_append] at hEntry
  split at hEntry
  · exact .inl hEntry
  · have hBound := (List.getElem?_eq_some_iff.mp hEntry).1
    rw [List.length_singleton] at hBound
    exact .inr ⟨by omega, List.mem_singleton.mp (List.mem_of_getElem? hEntry)⟩

/-- A step leaves the calls alone, adds one, or moves one on. -/
theorem calls_of_step (hStep : s.step event = some after) :
    after.calls = s.calls ∨
      (∃ kind, event = .call kind ∧ after.calls = s.calls ++ [{ kind := kind }]) ∨
      ∃ (number : Nat) (call : Call) (stage : CallStage), s.calls[number]? = some call ∧
        CallStage.Follows call.kind s.loops.length call.stage stage ∧
        after.calls = s.calls.set number { call with stage } := by
  cases stepsTo_of_step hStep with
  | called kind => exact .inr (.inl ⟨kind, rfl, rfl⟩)
  | exited hLive => exact .inl rfl
  | raised hCall hStage => exact .inr (.inr ⟨_, _, _, hCall, hStage ▸ .raise, rfl⟩)
  | passed hCall hStage hKind => exact .inr (.inr ⟨_, _, _, hCall, hStage ▸ .pass hKind, rfl⟩)
  | stopped hCall hStage hKind => exact .inr (.inr ⟨_, _, _, hCall, hStage ▸ .stop hKind, rfl⟩)
  | lowered hCall hStage => exact .inr (.inr ⟨_, _, _, hCall, hStage ▸ .lower, rfl⟩)
  | marked hCall hStage => exact .inr (.inr ⟨_, _, _, hCall, hStage ▸ .mark, rfl⟩)
  | started hCall hStage => exact .inr (.inr ⟨_, _, _, hCall, hStage ▸ .start, rfl⟩)
  | finished hCall hStage => exact .inr (.inr ⟨_, _, _, hCall, hStage ▸ .finish, rfl⟩)
  | droppedEarly hCall hKind hStage =>
      exact .inr (.inr ⟨_, _, _, hCall, hStage ▸ .leave hKind, rfl⟩)
  | droppedLive hCall hKind hStage | droppedLate hCall hKind hStage =>
      exact .inr (.inr ⟨_, _, _, hCall, hStage ▸ .leaveLoop, rfl⟩)

/-- A call that was made stays one of its kind, at its stage or the next. -/
theorem call_kept {number : Nat} {call : Call} (hStep : s.step event = some after)
    (hCall : s.calls[number]? = some call) :
    ∃ stage, after.calls[number]? = some { call with stage } ∧
      (stage = call.stage ∨ CallStage.Follows call.kind s.loops.length call.stage stage) := by
  obtain hSame | ⟨kind, -, hAdded⟩ | ⟨mover, moved, stage, hMoved, hFollows, hSet⟩ :=
    calls_of_step hStep
  · exact ⟨call.stage, by rw [hSame, hCall], .inl rfl⟩
  · have hBound := (List.getElem?_eq_some_iff.mp hCall).1
    exact ⟨call.stage, by rw [hAdded, List.getElem?_append_left hBound, hCall], .inl rfl⟩
  · have hBound := (List.getElem?_eq_some_iff.mp hCall).1
    by_cases hMover : mover = number
    · subst hMover
      cases hMoved.symm.trans hCall
      exact ⟨stage, by simp [hSet, hBound], .inr hFollows⟩
    · exact ⟨call.stage, by rw [hSet, List.getElem?_set_ne hMover, hCall], .inl rfl⟩

/-- A call is a new one, or was there at its stage or the one before. -/
theorem call_came {number : Nat} {call : Call} (hStep : s.step event = some after)
    (hCall : after.calls[number]? = some call) :
    (event = .call call.kind ∧ call.stage = .raising) ∨
      ∃ stage, s.calls[number]? = some { call with stage } ∧
        (call.stage = stage ∨ CallStage.Follows call.kind s.loops.length stage call.stage) := by
  obtain hSame | ⟨kind, rfl, hAdded⟩ | ⟨mover, moved, stage, hMoved, hFollows, hSet⟩ :=
    calls_of_step hStep
  · exact .inr ⟨call.stage, by rw [← hSame, hCall], .inl rfl⟩
  · rw [hAdded] at hCall
    obtain hOld | ⟨-, rfl⟩ := entry_of_append_single hCall
    · exact .inr ⟨call.stage, hOld, .inl rfl⟩
    · exact .inl ⟨rfl, rfl⟩
  · by_cases hMover : mover = number
    · subst hMover
      have hBound := (List.getElem?_eq_some_iff.mp hMoved).1
      rw [hSet, List.getElem?_set_self hBound, Option.some.injEq] at hCall
      subst hCall
      exact .inr ⟨moved.stage, hMoved, .inr hFollows⟩
    · rw [hSet, List.getElem?_set_ne hMover] at hCall
      exact .inr ⟨call.stage, hCall, .inl rfl⟩

/-- A loop that has exited stays so. -/
theorem gone_of_step {loop : Nat} (hStep : s.step event = some after)
    (hGone : s.loops[loop]? = some false) : after.loops[loop]? = some false := by
  have hCleared : ∀ exiting : Nat, (s.loops.set exiting false)[loop]? = some false := by
    intro exiting
    rw [List.getElem?_set]
    have hBound := (List.getElem?_eq_some_iff.mp hGone).1
    split <;> simp_all
  cases stepsTo_of_step hStep with
  | exited | droppedLive => exact hCleared _
  | started => exact (List.getElem?_append_left (List.getElem?_eq_some_iff.mp hGone).1).trans hGone
  | called | raised | passed | stopped | lowered | marked | finished | droppedEarly
  | droppedLate => exact hGone

/-- A step starts at most one loop. -/
theorem length_loops_of_step (hStep : s.step event = some after) :
    after.loops.length = s.loops.length ∨ after.loops.length = s.loops.length + 1 := by
  cases stepsTo_of_step hStep with
  | started => exact .inr (by simp)
  | exited | droppedLive => exact .inl (by simp [put])
  | called | raised | passed | stopped | lowered | marked | finished | droppedEarly
  | droppedLate => exact .inl rfl

/-- Neither a call nor a step of one ends a loop, and a step may start one. -/
theorem loops_of_caller (hStep : s.step event = some after)
    (hEvent : (∃ kind, event = .call kind) ∨ ∃ number, event = .advance number) :
    after.loops = s.loops ∨ after.loops = s.loops ++ [true] := by
  cases stepsTo_of_step hStep with
  | started => exact .inr rfl
  | called | raised | passed | stopped | lowered | marked | finished => exact .inl rfl
  | exited | droppedEarly | droppedLive | droppedLate =>
      obtain ⟨_, hOther⟩ | ⟨_, hOther⟩ := hEvent <;> cases hOther

end Calls

end RelayRace
