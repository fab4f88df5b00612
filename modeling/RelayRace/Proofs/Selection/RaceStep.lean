import RelayRace.Selection.Race

/-!
# What an event does to a race

A race that is over takes no event.  Until then its pool moves by itself, an
outcome is received, a tick goes by, ends the wait or crashes, and in the end the
race is closed, by itself or by force.  `Race.StepsTo` lists these cases with all that is
known in each; whatever is said about the steps of a race is derived from it.
-/

namespace RelayRace

namespace Race

variable {settings : Settings} {ctx : RoundContext} {amb : Ambient} {race next : Race}
  {acts : List Act}

/-- Everything that one event can make of a race. -/
inductive StepsTo (settings : Settings) (ctx : RoundContext) (amb : Ambient) (race : Race) :
    Event → Race → List Act → Prop where
  /-- Something happens in the pool. -/
  | pool {event : PoolEvent} {pool : Pool} {acts : List Act} :
      race.phase ≠ .over → race.pool.step ctx (race.moment amb) event = some (pool, acts) →
      StepsTo settings ctx amb race (.pool event) { race with pool } acts
  /-- An outcome is received. -/
  | receive {outcome : Outcome} {pool : Pool} :
      race.phase ≠ .over → race.pool.receive = some (outcome, pool) →
      StepsTo settings ctx amb race .receive
        { race with pool, received := race.received ++ [outcome] } []
  /-- A tick crashes. -/
  | crashes :
      race.phase = .waiting → race.crashesAt settings.pollRatio amb = true →
      StepsTo settings ctx amb race .tick race.crash.1 race.crash.2
  /-- A tick ends the wait. -/
  | winds :
      race.phase = .waiting → race.stopsAt settings.pollRatio amb = true →
      race.crashesAt settings.pollRatio amb = false →
      StepsTo settings ctx amb race .tick (race.wind settings amb) []
  /-- A tick goes by. -/
  | waits :
      race.phase = .waiting → race.stopsAt settings.pollRatio amb = false →
      race.crashesAt settings.pollRatio amb = false →
      StepsTo settings ctx amb race .tick
        { race with
          ticks := race.ticks + 1
          nextTick := amb.now + settings.connectPoll.nanos } []
  /-- Nothing can come any more. -/
  | settles :
      race.pool.isExhausted = true →
      StepsTo settings ctx amb race .settle race.close.1 race.close.2
  /-- The grace period is over. -/
  | expires {limit : Instant} :
      race.phase = .winding limit → limit ≤ amb.now →
      StepsTo settings ctx amb race .expire race.close.1 race.close.2

theorem stepsTo_of_pool {event : PoolEvent}
    (hStep : race.step settings ctx amb (.pool event) = some (next, acts)) :
    StepsTo settings ctx amb race (.pool event) next acts := by
  have hUnder : race.phase ≠ .over := by
    intro hOver
    simp [step, hOver] at hStep
  simp only [step] at hStep
  split at hStep
  case h_3 => cases hStep
  all_goals
    split at hStep
    · rename_i hTask
      cases hStep
      exact .pool hUnder hTask
    · cases hStep

theorem stepsTo_of_receive (hReceive : race.receive = some next) :
    StepsTo settings ctx amb race .receive next [] := by
  have hUnder : race.phase ≠ .over := by
    intro hOver
    simp [receive, hOver] at hReceive
  simp only [receive] at hReceive
  split at hReceive
  case h_3 => cases hReceive
  all_goals
    split at hReceive
    · rename_i hSent
      cases hReceive
      exact .receive hUnder hSent
    · cases hReceive

theorem stepsTo_of_tick (hTick : race.tick settings amb = some (next, acts)) :
    StepsTo settings ctx amb race .tick next acts := by
  unfold tick at hTick
  split at hTick
  · rename_i hWaiting
    split at hTick
    · cases hTick
    · split at hTick
      · rename_i hCrashes
        cases hTick
        exact .crashes hWaiting hCrashes
      · rename_i hSafe
        split at hTick
        · rename_i hStops
          cases hTick
          exact .winds hWaiting hStops (by simpa using hSafe)
        · rename_i hGoes
          cases hTick
          exact .waits hWaiting (by simpa using hGoes) (by simpa using hSafe)
  · cases hTick
  · cases hTick

theorem stepsTo_of_step {event : Event}
    (hStep : race.step settings ctx amb event = some (next, acts)) :
    StepsTo settings ctx amb race event next acts := by
  cases event with
  | pool event => exact stepsTo_of_pool hStep
  | receive =>
      obtain ⟨_, hReceive, hEq⟩ := Option.map_eq_some_iff.mp hStep
      cases hEq
      exact stepsTo_of_receive hReceive
  | tick => exact stepsTo_of_tick hStep
  | settle =>
      simp only [step, settle] at hStep
      split at hStep
      · split at hStep
        · rename_i hExhausted
          cases hStep
          exact .settles hExhausted
        · cases hStep
      · cases hStep
      · cases hStep
  | expire =>
      simp only [step, expire] at hStep
      split at hStep
      · rename_i hWinding
        split at hStep
        · rename_i hLimit
          cases hStep
          exact .expires hWinding hLimit
        · cases hStep
      · cases hStep
      · cases hStep

/-- A race that crashed did so at a tick. -/
theorem crashesAt_of_crashed {event : Event}
    (hStep : race.step settings ctx amb event = some (next, acts)) (hOver : next.phase = .over)
    (hCrashed : next.crashed = true) :
    race.phase = .waiting ∧ race.crashesAt settings.pollRatio amb = true := by
  cases stepsTo_of_step hStep with
  | pool hUnder | receive hUnder => exact absurd hOver hUnder
  | crashes hWaiting hCrashes => exact ⟨hWaiting, hCrashes⟩
  | winds => cases hOver
  | waits hWaiting => cases hWaiting.symm.trans hOver
  | settles | expires => cases hCrashed

/-- Only ticks that are counted out by zero crash. -/
theorem ratio_of_crashesAt {ratio : Nat} (hCrashes : race.crashesAt ratio amb = true) :
    ratio = 0 := by
  simp only [crashesAt, Bool.and_eq_true, beq_iff_eq] at hCrashes
  exact hCrashes.1.1.1

/-- No step takes a received outcome back or changes how many jobs there are. -/
theorem step_keeps {event : Event}
    (hStep : race.step settings ctx amb event = some (next, acts)) :
    race.received <+: next.received ∧ next.dispatched = race.dispatched := by
  cases stepsTo_of_step hStep with
  | pool | winds | waits => exact ⟨List.prefix_refl _, rfl⟩
  | receive | crashes | settles | expires => exact ⟨List.prefix_append _ _, rfl⟩

end Race

end RelayRace
