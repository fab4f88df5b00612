/-!
# Schedules

A machine of this library takes one event at a time and refuses an event that
cannot happen when its turn comes.  A schedule is a list of events, so every
interleaving of whatever takes part is some schedule.  What every step keeps,
every schedule keeps, and what every step commutes with, every schedule does.
-/

namespace RelayRace

section

variable {σ ε : Type} {step : σ → ε → Option σ}

/-- Plays a schedule from a state on; none when one of its events is refused. -/
def playSchedule (step : σ → ε → Option σ) (s : σ) (schedule : List ε) : Option σ :=
  schedule.foldlM step s

theorem playSchedule_cons (s : σ) (event : ε) (rest : List ε) :
    playSchedule step s (event :: rest) =
      (step s event).bind fun next => playSchedule step next rest := rfl

theorem playSchedule_append (s : σ) (schedule rest : List ε) :
    playSchedule step s (schedule ++ rest) =
      (playSchedule step s schedule).bind fun middle => playSchedule step middle rest :=
  List.foldlM_append

/-- A property that every event of a schedule keeps holds at its end. -/
theorem playSchedule_keeps {P : σ → Prop} :
    ∀ (schedule : List ε) {s t : σ},
      (∀ event ∈ schedule, ∀ before after, P before → step before event = some after →
        P after) →
      P s → playSchedule step s schedule = some t → P t
  | [], s, t, _, hStart, hPlay => by
      cases hPlay
      exact hStart
  | event :: rest, s, t, hKeeps, hStart, hPlay => by
      rw [playSchedule_cons, Option.bind_eq_some_iff] at hPlay
      obtain ⟨next, hStep, hRest⟩ := hPlay
      have hNext : P next := hKeeps event (by simp) s next hStart hStep
      exact playSchedule_keeps rest
        (fun event hEvent => hKeeps event (by simp [hEvent])) hNext hRest

/-- A change of states and events that every step commutes with commutes with
every schedule. -/
theorem playSchedule_map {f : σ → σ} {g : ε → ε}
    (hStep : ∀ s event, step (f s) (g event) = (step s event).map f) (schedule : List ε) :
    ∀ s, playSchedule step (f s) (schedule.map g) = (playSchedule step s schedule).map f := by
  induction schedule with
  | nil => exact fun _ => rfl
  | cons event rest ih =>
      intro s
      rw [List.map_cons, playSchedule_cons, playSchedule_cons, hStep]
      cases step s event with
      | none => rfl
      | some next => exact ih next

end

end RelayRace
