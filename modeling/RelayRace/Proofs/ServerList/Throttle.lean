import RelayRace.Proofs.Schedule
import RelayRace.Proofs.ServerList.Merged
import RelayRace.ServerList.Usage

/-!
# A refresh is put off by a success only

What the list keeps of its past is one time.  Here that time is told from all that
ever happened to the list (`lastSuccess`): it is the time of the last answer that
was no failure, whatever else came in between.  So a refresh asks the remote
source if and only if there is one and the last success, if any, is long enough
ago (`MayAsk`), and a refresh that failed, was put off or was dropped counts for
nothing.
-/

namespace RelayRace

/-! ## The past of a list -/

namespace ListEvent

/-- The time of a success, if the event is one. -/
def success : ListEvent → Option Instant
  | .answer now (.ok _) => some now
  | _ => none

/-- The minimum interval, if the event sets it. -/
def interval : ListEvent → Option Duration
  | .setMinInterval interval => some interval
  | _ => none

/-- Whether the event changes nothing but entries, and is no part of a refresh. -/
def isUpkeep : ListEvent → Bool
  | .moveToFront _ | .merge _ => true
  | _ => false

end ListEvent

/-- When the remote source last answered without a failure. -/
def lastSuccess (history : List ListEvent) : Option Instant :=
  lastSet (history.map ListEvent.success)

/-- The minimum interval that was set last; it is empty as long as none was set. -/
def intervalAfter (history : List ListEvent) : Duration :=
  (lastSet (history.map ListEvent.interval)).getD .zero

/-- Whether a refresh may ask the remote source after all this. -/
def MayAsk (history : List ListEvent) (now : Instant) : Prop :=
  .setRemote ∈ history ∧
    ∀ last, lastSuccess history = some last → last + (intervalAfter history).nanos ≤ now

theorem lastSuccess_append_singleton (history : List ListEvent) (event : ListEvent) :
    lastSuccess (history ++ [event]) = event.success.or (lastSuccess history) := by
  rw [lastSuccess, List.map_append]
  exact lastSet_append_singleton _ _

theorem intervalAfter_append_singleton (history : List ListEvent) (event : ListEvent) :
    intervalAfter (history ++ [event]) = event.interval.getD (intervalAfter history) := by
  rw [intervalAfter, List.map_append]
  refine (congrArg (Option.getD · _) (lastSet_append_singleton _ _)).trans ?_
  cases event.interval <;> rfl

/-! ## The two halves of a refresh -/

namespace ServerList

theorem asksRemote_later {list : ServerList} {now later : Instant}
    (hAsks : list.asksRemote now = true) (hLater : now ≤ later) :
    list.asksRemote later = true := by
  obtain ⟨hRemote, hDue⟩ := Bool.and_eq_true_iff.mp hAsks
  refine Bool.and_eq_true_iff.mpr ⟨hRemote, ?_⟩
  unfold isDue at hDue ⊢
  cases hLast : list.refreshedAt with
  | none => rfl
  | some last =>
      rw [hLast] at hDue
      exact decide_eq_true (Nat.le_trans (of_decide_eq_true hDue) hLater)

theorem refresh_eq_halves (list : ServerList) (now : Instant)
    (answer : Except Failure (List Candidate)) :
    list.refresh now answer =
      if list.asksRemote now then list.takeAnswer now answer else (list.skipped, list) := by
  cases hAsks : list.asksRemote now with
  | true =>
      rw [refresh_of_asks hAsks]
      cases answer <;> rfl
  | false => exact refresh_of_not_asks hAsks answer

end ServerList

namespace ListInUse

variable {s t : ListInUse} {event : ListEvent} {reply : ListReply} {now : Instant}
  {history : List ListEvent}

/-! ## One event -/

/-- All that an event can do. -/
inductive Does (s : ListInUse) : ListEvent → ListInUse → ListReply → Prop
  | setRemote (idle : s.waiting = false) :
      Does s .setRemote { s with list := { s.list with hasRemote := true } } .nothing
  | setMinInterval (idle : s.waiting = false) (interval : Duration) :
      Does s (.setMinInterval interval)
        { s with list := { s.list with minInterval := interval } } .nothing
  | moveToFront (winners : List Candidate) :
      Does s (.moveToFront winners) { s with list := s.list.moveToFront winners } .nothing
  | merge (fetched : List Candidate) :
      Does s (.merge fetched) { s with list := (s.list.merge fetched).1 } .nothing
  /-- A refresh asks the remote source. -/
  | asked {now : Instant} (idle : s.waiting = false) (later : s.clock ≤ now)
      (asks : s.list.asksRemote now = true) :
      Does s (.refresh now) { s with waiting := true, clock := now } .asked
  /-- A refresh is over before it began. -/
  | skipped {now : Instant} (idle : s.waiting = false) (later : s.clock ≤ now)
      (asks : s.list.asksRemote now = false) :
      Does s (.refresh now) { s with clock := now } (.refreshed s.list.skipped)
  /-- The remote source has no answer. -/
  | failed {now : Instant} (waits : s.waiting = true) (later : s.clock ≤ now)
      (failure : Failure) :
      Does s (.answer now (.error failure)) { s with waiting := false, clock := now }
        (.refreshed (.failed (.remoteFetch failure.message)))
  /-- The answer is merged. -/
  | merged {now : Instant} (waits : s.waiting = true) (later : s.clock ≤ now)
      (fetched : List Candidate) :
      Does s (.answer now (.ok fetched))
        { list := { (s.list.merge fetched).1 with refreshedAt := some now }
          waiting := false
          clock := now }
        (.refreshed (.merged (s.list.merge fetched).2))
  | dropped (waits : s.waiting = true) :
      Does s .drop { s with waiting := false } .nothing

theorem step_of_does (hDoes : Does s event t reply) : s.step event = some (t, reply) := by
  cases hDoes with
  | setRemote hIdle | setMinInterval hIdle => simp [step, hIdle]
  | moveToFront | merge => rfl
  | asked hIdle hLater hAsks | skipped hIdle hLater hAsks =>
      simp [step, hIdle, hAsks, Nat.not_lt.mpr hLater]
  | failed hWaits hLater | merged hWaits hLater =>
      simp [step, ServerList.takeAnswer, hWaits, Nat.not_lt.mpr hLater]
  | dropped hWaits => simp [step, hWaits]

theorem does_of_step (hStep : s.step event = some (t, reply)) : Does s event t reply := by
  cases event with
  | setRemote =>
      obtain ⟨hIdle, hSome⟩ := Option.ite_none_left_eq_some.mp hStep
      cases hSome
      exact .setRemote (eq_false_of_ne_true hIdle)
  | setMinInterval interval =>
      obtain ⟨hIdle, hSome⟩ := Option.ite_none_left_eq_some.mp hStep
      cases hSome
      exact .setMinInterval (eq_false_of_ne_true hIdle) interval
  | moveToFront winners =>
      cases hStep
      exact .moveToFront winners
  | merge fetched =>
      cases hStep
      exact .merge fetched
  | refresh now =>
      obtain ⟨hCan, hSome⟩ := Option.ite_none_left_eq_some.mp hStep
      obtain ⟨hIdle, hLater⟩ : s.waiting = false ∧ s.clock ≤ now := by simpa using hCan
      cases hAsks : s.list.asksRemote now with
      | true =>
          rw [hAsks] at hSome
          cases hSome
          exact .asked hIdle hLater hAsks
      | false =>
          rw [hAsks] at hSome
          cases hSome
          exact .skipped hIdle hLater hAsks
  | answer now answer =>
      obtain ⟨hCan, hSome⟩ := Option.ite_none_left_eq_some.mp hStep
      obtain ⟨hWaits, hLater⟩ : s.waiting = true ∧ s.clock ≤ now := by simpa using hCan
      cases answer with
      | error failure =>
          cases hSome
          exact .failed hWaits hLater failure
      | ok fetched =>
          cases hSome
          exact .merged hWaits hLater fetched
  | drop =>
      obtain ⟨hWaits, hSome⟩ := Option.ite_none_right_eq_some.mp hStep
      cases hSome
      exact .dropped hWaits

/-- The list after an event. -/
def after (s : ListInUse) (event : ListEvent) : Option ListInUse := (s.step event).map Prod.fst

/-- The list after a schedule. -/
def play (s : ListInUse) (schedule : List ListEvent) : Option ListInUse :=
  playSchedule after s schedule

theorem exists_does (hAfter : s.after event = some t) : ∃ reply, Does s event t reply := by
  obtain ⟨⟨_, reply⟩, hStep, rfl⟩ := Option.map_eq_some_iff.mp hAfter
  exact ⟨reply, does_of_step hStep⟩

namespace Does

theorem hasRemote (hDoes : Does s event t reply) :
    t.list.hasRemote = true ↔ s.list.hasRemote = true ∨ event = .setRemote := by
  cases hDoes with
  | setRemote => exact iff_of_true rfl (.inr rfl)
  | _ => exact (or_iff_left nofun).symm

theorem minInterval (hDoes : Does s event t reply) :
    t.list.minInterval = event.interval.getD s.list.minInterval := by
  cases hDoes <;> rfl

theorem refreshedAt (hDoes : Does s event t reply) :
    t.list.refreshedAt = event.success.or s.list.refreshedAt := by
  cases hDoes <;> rfl

/-- A refresh that waits was called when it might ask, and what it went by is kept
until it is over. -/
theorem waiting (hDoes : Does s event t reply)
    (hKept : s.waiting = true → s.list.asksRemote s.clock = true) :
    t.waiting = true → t.list.asksRemote t.clock = true := by
  cases hDoes with
  | asked _ _ hAsks => exact fun _ => hAsks
  | setRemote hIdle | setMinInterval hIdle | skipped hIdle =>
      exact fun hWaits => Bool.noConfusion (hIdle.symm.trans hWaits)
  | moveToFront | merge => exact hKept
  | failed | merged | dropped => exact nofun

end Does

/-! ## What a list keeps of its past -/

/-- A list to which all this happened. -/
structure UsedBy (history : List ListEvent) (s : ListInUse) : Prop where
  hasRemote : s.list.hasRemote = true ↔ .setRemote ∈ history
  minInterval : s.list.minInterval = intervalAfter history
  refreshedAt : s.list.refreshedAt = lastSuccess history
  /-- A refresh that waits was called when it might ask. -/
  waiting : s.waiting = true → s.list.asksRemote s.clock = true

namespace UsedBy

theorem nil (entries : List Candidate) : UsedBy [] (ofEntries entries) where
  hasRemote := iff_of_false nofun List.not_mem_nil
  minInterval := rfl
  refreshedAt := rfl
  waiting := nofun

theorem step (hUsed : UsedBy history s) (hDoes : Does s event t reply) :
    UsedBy (history ++ [event]) t where
  hasRemote := by
    rw [hDoes.hasRemote, hUsed.hasRemote, List.mem_append, List.mem_singleton, eq_comm]
  minInterval := by
    rw [hDoes.minInterval, hUsed.minInterval, intervalAfter_append_singleton]
  refreshedAt := by
    rw [hDoes.refreshedAt, hUsed.refreshedAt, lastSuccess_append_singleton]
  waiting := hDoes.waiting hUsed.waiting

theorem play {later : List ListEvent} (hUsed : UsedBy history s)
    (hPlay : s.play later = some t) : UsedBy (history ++ later) t := by
  induction later generalizing history s with
  | nil =>
      cases hPlay
      rwa [List.append_nil]
  | cons event rest ih =>
      rw [ListInUse.play, playSchedule_cons, Option.bind_eq_some_iff] at hPlay
      obtain ⟨next, hAfter, hRest⟩ := hPlay
      obtain ⟨reply, hDoes⟩ := exists_does hAfter
      rw [List.append_cons]
      exact ih (hUsed.step hDoes) hRest

/-- The list asks when its past allows it. -/
theorem asksRemote_iff (hUsed : UsedBy history s) (now : Instant) :
    s.list.asksRemote now = true ↔ MayAsk history now := by
  rw [ServerList.asksRemote, Bool.and_eq_true, hUsed.hasRemote, MayAsk, ServerList.isDue,
    hUsed.refreshedAt, hUsed.minInterval]
  cases lastSuccess history <;> simp

end UsedBy

/-! ## After a refresh that came to nothing -/

/-- Whatever is done with the entries, the next refresh asks the remote source. -/
def AsksNext (s : ListInUse) : Prop :=
  ∀ (upkeep : List ListEvent) (later : Instant), (∀ event ∈ upkeep, event.isUpkeep = true) →
    s.clock ≤ later →
      ∃ t u, s.play upkeep = some t ∧ t.step (.refresh later) = some (u, .asked)

theorem asksNext_of_asks (hIdle : s.waiting = false) (hAsks : s.list.asksRemote s.clock = true) :
    s.AsksNext := by
  intro upkeep later hUpkeep hLater
  induction upkeep generalizing s with
  | nil =>
      have hStill := ServerList.asksRemote_later hAsks hLater
      exact ⟨s, _, rfl, step_of_does (.asked hIdle hLater hStill)⟩
  | cons event rest ih =>
      have hRest := fun other hMem => hUpkeep other (List.mem_cons_of_mem event hMem)
      have hEvent := hUpkeep event List.mem_cons_self
      cases event with
      | moveToFront winners =>
          exact ih (s := { s with list := s.list.moveToFront winners }) hIdle hAsks hRest hLater
      | merge fetched =>
          exact ih (s := { s with list := (s.list.merge fetched).1 }) hIdle hAsks hRest hLater
      | _ => cases hEvent

/-! ## A refresh in one go -/

/-- When the answer is there at once, the halves make up a whole refresh. -/
theorem refresh_at_once (hIdle : s.waiting = false) (hLater : s.clock ≤ now)
    (answer : Except Failure (List Candidate)) :
    s.play (.refresh now :: if s.list.asksRemote now then [.answer now answer] else []) =
      some { list := (s.list.refresh now answer).2, waiting := false, clock := now } := by
  rw [ServerList.refresh_eq_halves, play, playSchedule_cons, after]
  cases hAsks : s.list.asksRemote now with
  | true =>
      rw [step_of_does (.asked hIdle hLater hAsks)]
      simp [playSchedule, after, step]
  | false =>
      rw [step_of_does (.skipped hIdle hLater hAsks)]
      simp [playSchedule, hIdle]

/-! ## The throttle -/

/-- What a refresh does to a list to which all this happened. -/
structure Throttled (history : List ListEvent) (s : ListInUse) : Prop where
  /-- A refresh that may ask asks. -/
  asked : ∀ {now : Instant}, s.waiting = false → s.clock ≤ now → MayAsk history now →
    s.step (.refresh now) = some ({ s with waiting := true, clock := now }, .asked)
  /-- Any other is over at once, without a failure, and the list is as it was. -/
  skipped : ∀ {now : Instant}, s.waiting = false → s.clock ≤ now → ¬MayAsk history now →
    s.step (.refresh now) = some ({ s with clock := now }, .refreshed s.list.skipped) ∧
      s.list.skipped.result = .ok ()
  /-- A failure is handed on in its own words, the list is as it was, and the next
  refresh asks again. -/
  failed : ∀ {now : Instant} (failure : Failure), s.waiting = true → s.clock ≤ now →
    ∃ result t, s.step (.answer now (.error failure)) = some (t, .refreshed result) ∧
      result.result = .error (.remoteFetch failure.message) ∧
      t = { s with waiting := false, clock := now } ∧ t.AsksNext
  /-- An answer is merged, and its time is kept. -/
  merged : ∀ {now : Instant} (fetched : List Candidate), s.waiting = true → s.clock ≤ now →
    ∃ result t, s.step (.answer now (.ok fetched)) = some (t, .refreshed result) ∧
      result.result = .ok () ∧
      t.list = { (s.list.merge fetched).1 with refreshedAt := some now } ∧ t.waiting = false
  /-- A refresh that is dropped leaves the list as it was, and the next one asks again. -/
  dropped : s.waiting = true →
    ∃ t, s.step .drop = some (t, .nothing) ∧ t = { s with waiting := false } ∧ t.AsksNext

theorem UsedBy.throttled (hUsed : UsedBy history s) : Throttled history s where
  asked := fun hIdle hLater hMay =>
    step_of_does (.asked hIdle hLater ((hUsed.asksRemote_iff _).mpr hMay))
  skipped := by
    intro now hIdle hLater hMayNot
    have hAsks : s.list.asksRemote now = false :=
      eq_false_of_ne_true fun hAsks => hMayNot ((hUsed.asksRemote_iff now).mp hAsks)
    refine ⟨step_of_does (.skipped hIdle hLater hAsks), ?_⟩
    unfold ServerList.skipped
    split <;> rfl
  failed := by
    intro now failure hWaits hLater
    have hAsks := ServerList.asksRemote_later (hUsed.waiting hWaits) hLater
    exact ⟨_, _, step_of_does (.failed hWaits hLater failure), rfl, rfl,
      asksNext_of_asks rfl hAsks⟩
  merged := fun fetched hWaits hLater =>
    ⟨_, _, step_of_does (.merged hWaits hLater fetched), rfl, rfl, rfl⟩
  dropped := fun hWaits =>
    ⟨_, step_of_does (.dropped hWaits), rfl, asksNext_of_asks rfl (hUsed.waiting hWaits)⟩

/-- Whatever happened to a list since it was made: a refresh asks the remote source if
and only if there is one and the last success, if any, is long enough ago; one
that is put off or fails leaves the list as it was, and the next one after a
failure asks again; one that succeeds leaves the merged list. -/
theorem throttled_by_success {entries : List Candidate}
    (hPlay : (ofEntries entries).play history = some s) : Throttled history s :=
  ((UsedBy.nil entries).play hPlay).throttled

/-- The source answers at 7, a refresh at 12 is put off, and one at 20 fails. -/
def Sample.used : List ListEvent :=
  [.setRemote, .setMinInterval ⟨10⟩, .refresh 5, .answer 7 (.ok [.ofAddress "b"]),
    .moveToFront [.ofAddress "b"], .refresh 12, .refresh 20, .answer 21 (.error .aborted)]

/-- What was merged at 7 is in front, and the refresh after the failure asks. -/
theorem asked_again_after_a_failure :
    ∃ s, (ofEntries [.ofAddress "a"]).play Sample.used = some s ∧
      s.list.addresses = ["b", "a"] ∧ s.list.refreshedAt = some 7 ∧
      s.step (.refresh 21) = some ({ s with waiting := true }, .asked) ∧
      Throttled Sample.used s :=
  ⟨_, rfl, by decide +kernel, rfl, rfl, throttled_by_success rfl⟩

end ListInUse

end RelayRace
