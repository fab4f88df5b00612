import Mathlib.Data.List.Nodup
import RelayRace.Proofs.ServerList.Merge

/-!
# The list over any run of calls

Three calls change a stored list: moving winners to the front, merging entries
and refreshing from the remote source.  Their arguments are arbitrary: winners
may be unknown or repeated, and fetched entries may repeat an address.

Each call is put together from two kinds of small steps, taking in one fetched
entry and bringing one entry to the front, and each small step lets the list grow
in one and the same sense (`Grown`).  That sense composes, so it carries over to
a call and to a run of calls.
-/

namespace RelayRace

namespace Candidate

/-- Whether an entry is one of the same address in which nothing is open that
`earlier` had written back. -/
structure Remembers (entry earlier : Candidate) : Prop where
  address : entry.ipAddress = earlier.ipAddress
  connType : earlier.connType.isSome = true → entry.connType.isSome = true
  front : earlier.front.isSome = true → entry.front.isSome = true

theorem Remembers.refl (entry : Candidate) : entry.Remembers entry := ⟨rfl, id, id⟩

theorem Remembers.trans {entry earlier first : Candidate} (hLate : entry.Remembers earlier)
    (hEarly : earlier.Remembers first) : entry.Remembers first :=
  ⟨hLate.address.trans hEarly.address, hLate.connType ∘ hEarly.connType,
    hLate.front ∘ hEarly.front⟩

theorem remembers_takeWrittenBack (entry winner : Candidate) :
    (entry.takeWrittenBack winner).Remembers entry where
  address := rfl
  connType := fun hSet => by simp [takeWrittenBack, hSet]
  front := fun hSet => by simp [takeWrittenBack, hSet]

theorem remembers_replacedBy {entry fetched : Candidate}
    (hSame : entry.ipAddress = fetched.ipAddress) :
    (entry.replacedBy fetched).Remembers entry where
  address := hSame.symm
  connType := fun hSet => by simp [replacedBy, hSet]
  front := fun hSet => by simp [replacedBy, hSet]

end Candidate

namespace ServerList

/-! ## How a list grows -/

/-- What becomes of some entries when further ones are taken in and `added` of
them are counted as new. -/
structure Grown (before after : List Candidate) (added : Nat) (taken : List Candidate) :
    Prop where
  /-- Distinct addresses stay distinct. -/
  distinct : (before.map Candidate.ipAddress).Nodup → (after.map Candidate.ipAddress).Nodup
  /-- The addresses are those that were there and those that were taken in. -/
  addresses : ∀ address, address ∈ after.map Candidate.ipAddress ↔
    address ∈ before.map Candidate.ipAddress ∨ address ∈ taken.map Candidate.ipAddress
  length : after.length = before.length + added
  /-- What was written back is not lost. -/
  remembered : ∀ earlier ∈ before, ∃ entry ∈ after, entry.Remembers earlier

theorem Grown.refl (entries : List Candidate) : Grown entries entries 0 [] where
  distinct := id
  addresses := by simp
  length := rfl
  remembered := fun entry hMem => ⟨entry, hMem, .refl entry⟩

theorem Grown.trans {first second third : List Candidate} {early late : Nat}
    {earlyTaken lateTaken : List Candidate} (hEarly : Grown first second early earlyTaken)
    (hLate : Grown second third late lateTaken) :
    Grown first third (early + late) (earlyTaken ++ lateTaken) where
  distinct := hLate.distinct ∘ hEarly.distinct
  addresses := by
    intro address
    rw [hLate.addresses, hEarly.addresses, List.map_append, List.mem_append, or_assoc]
  length := by
    have hFirst := hEarly.length
    have hSecond := hLate.length
    omega
  remembered := by
    intro earlier hMem
    obtain ⟨middle, hMiddle, hRemembers⟩ := hEarly.remembered earlier hMem
    obtain ⟨entry, hEntry, hLast⟩ := hLate.remembered middle hMiddle
    exact ⟨entry, hEntry, hLast.trans hRemembers⟩

/-! ## Small steps -/

/-- Taking in one fetched entry. -/
theorem grown_upsert (fetched : Candidate) (entries : List Candidate) :
    Grown entries (upsert fetched entries).1 (upsert fetched entries).2 [fetched] := by
  have hUpserted := upserted fetched entries
  generalize upsert fetched entries = result at hUpserted
  cases hUpserted with
  | replaced before entry after hFirst hSame =>
      have hMap := addresses_replaced hSame before after
      refine ⟨?_, ?_, ?_, ?_⟩
      · intro hDistinct
        rwa [hMap]
      · intro address
        rw [hMap]
        constructor
        · exact Or.inl
        · rintro (hOld | hTaken)
          · exact hOld
          · rw [List.mem_singleton.mp hTaken, ← hSame]
            exact List.mem_map_of_mem (List.mem_append_right _ List.mem_cons_self)
      · rw [List.length_append, List.length_append, List.length_cons, List.length_cons]
        rfl
      · intro earlier hMem
        rcases List.mem_append.mp hMem with hBefore | hRest
        · exact ⟨earlier, List.mem_append_left _ hBefore, .refl earlier⟩
        · rcases List.mem_cons.mp hRest with rfl | hAfter
          · exact ⟨_, List.mem_append_right _ List.mem_cons_self,
              Candidate.remembers_replacedBy hSame⟩
          · exact ⟨earlier, List.mem_append_right _ (List.mem_cons_of_mem _ hAfter),
              .refl earlier⟩
  | added _ hNew =>
      refine ⟨?_, ?_, ?_, ?_⟩
      · intro hDistinct
        rw [List.map_append, List.nodup_append]
        refine ⟨hDistinct, List.nodup_singleton _, ?_⟩
        intro address hOld other hTaken
        obtain ⟨entry, hMem, rfl⟩ := List.mem_map.mp hOld
        rw [List.mem_singleton.mp hTaken]
        exact hNew entry hMem
      · intro address
        rw [List.map_append, List.mem_append]
      · rw [List.length_append]
        rfl
      · intro earlier hMem
        exact ⟨earlier, List.mem_append_left _ hMem, .refl earlier⟩

/-- Bringing one entry to the front, with what its winner wrote back. -/
theorem grown_toFront {front entries : List Candidate} {winner entry : Candidate}
    (hFind : (entries.find? fun entry => entry.sameServer winner) = some entry) :
    Grown (front ++ entries)
      ((front ++ [entry.takeWrittenBack winner]) ++
        entries.eraseP fun entry => entry.sameServer winner) 0 [] := by
  have hPerm := perm_of_find? hFind
  have hAddresses := addresses_toFront front hFind
  refine ⟨?_, ?_, ?_, ?_⟩
  · exact hAddresses.nodup_iff.mpr
  · intro address
    rw [hAddresses.mem_iff, List.map_nil]
    exact (or_iff_left List.not_mem_nil).symm
  · have hLength := hAddresses.length_eq
    rwa [List.length_map, List.length_map] at hLength
  · intro earlier hMem
    rcases List.mem_append.mp hMem with hFront | hEntries
    · exact ⟨earlier, by simp [hFront], .refl earlier⟩
    · rcases List.mem_cons.mp (hPerm.mem_iff.mpr hEntries) with rfl | hOther
      · exact ⟨_, by simp, Candidate.remembers_takeWrittenBack _ winner⟩
      · exact ⟨earlier, by simp [hOther], .refl earlier⟩

/-! ## Whole calls -/

theorem grown_mergeInto (fetched : List Candidate) :
    ∀ entries : List Candidate,
      Grown entries (mergeInto entries fetched).1 (mergeInto entries fetched).2 fetched := by
  induction fetched with
  | nil => exact Grown.refl
  | cons first rest ih =>
      intro entries
      exact (grown_upsert first entries).trans (ih (upsert first entries).1)

theorem grown_moveOnto (winners : List Candidate) :
    ∀ front entries : List Candidate,
      Grown (front ++ entries) (moveOnto front entries winners) 0 [] := by
  induction winners with
  | nil =>
      intro front entries
      exact Grown.refl _
  | cons winner rest ih =>
      intro front entries
      rw [moveOnto]
      by_cases hFront : (front.any fun moved => moved.sameServer winner) = true
      · rw [if_pos hFront]
        exact ih front entries
      · rw [if_neg hFront]
        split
        · rename_i entry hFind
          exact (grown_toFront hFind).trans (ih _ _)
        · exact ih front entries

/-- A call that changes a stored list. -/
inductive Operation where
  | moveToFront (winners : List Candidate)
  | merge (fetched : List Candidate)
  /-- At this time, with what the remote source answers if it is asked. -/
  | refresh (now : Instant) (answer : Except Failure (List Candidate))

/-- A list after some calls, with what the merges among them did. -/
structure Upkeep where
  list : ServerList
  /-- How many entries the merges counted as added. -/
  added : Nat
  /-- The entries that the merges were given. -/
  taken : List Candidate

/-- How many entries a refresh tells to have added. -/
def Refresh.added : Refresh → Nat
  | .merged added => added
  | .noRemote | .recent | .failed _ => 0

/-- The entries that a refresh merges: those of the answer, if it asks for one. -/
def refreshedWith (list : ServerList) (now : Instant)
    (answer : Except Failure (List Candidate)) : List Candidate :=
  if list.asksRemote now then answer.toOption.getD [] else []

/-- One call. -/
def operate (list : ServerList) : Operation → Upkeep
  | .moveToFront winners => ⟨list.moveToFront winners, 0, []⟩
  | .merge fetched => ⟨(list.merge fetched).1, (list.merge fetched).2, fetched⟩
  | .refresh now answer =>
      ⟨(list.refresh now answer).2, (list.refresh now answer).1.added,
        list.refreshedWith now answer⟩

/-- One call after the other. -/
def operateAll (list : ServerList) : List Operation → Upkeep
  | [] => ⟨list, 0, []⟩
  | operation :: rest =>
      let first := list.operate operation
      let more := first.list.operateAll rest
      ⟨more.list, first.added + more.added, first.taken ++ more.taken⟩

/-- Refreshing changes the entries by merging, or not at all. -/
theorem grown_refresh (list : ServerList) (now : Instant)
    (answer : Except Failure (List Candidate)) :
    Grown list.entries (list.refresh now answer).2.entries (list.refresh now answer).1.added
      (list.refreshedWith now answer) := by
  cases hAsks : list.asksRemote now with
  | false =>
      rw [refresh_of_not_asks hAsks, refreshedWith, hAsks]
      cases list.hasRemote <;> exact Grown.refl _
  | true =>
      rw [refresh_of_asks hAsks, refreshedWith, hAsks]
      cases answer with
      | error failure => exact Grown.refl _
      | ok fetched => exact grown_mergeInto fetched list.entries

theorem grown_operate (list : ServerList) (operation : Operation) :
    Grown list.entries (list.operate operation).list.entries (list.operate operation).added
      (list.operate operation).taken := by
  cases operation with
  | moveToFront winners => exact grown_moveOnto winners [] list.entries
  | merge fetched => exact grown_mergeInto fetched list.entries
  | refresh now answer => exact grown_refresh list now answer

theorem grown_operateAll (operations : List Operation) :
    ∀ list : ServerList,
      Grown list.entries (list.operateAll operations).list.entries
        (list.operateAll operations).added (list.operateAll operations).taken := by
  induction operations with
  | nil =>
      intro list
      exact Grown.refl _
  | cons operation rest ih =>
      intro list
      exact (grown_operate list operation).trans (ih _)

/-! ## Any run of calls -/

/-- What a list has kept after some calls. -/
structure WellKept (before : ServerList) (upkeep : Upkeep) : Prop where
  /-- No two entries have one address. -/
  distinct : upkeep.list.addresses.Nodup
  /-- Every address that was there is there, and those that were merged are. -/
  addresses : ∀ address, address ∈ upkeep.list.addresses ↔
    address ∈ before.addresses ∨ address ∈ upkeep.taken.map Candidate.ipAddress
  /-- The list is longer by what the merges counted. -/
  length : upkeep.list.entries.length = before.entries.length + upkeep.added
  /-- The protocol and the front of an entry are set if they were set before. -/
  remembered : ∀ earlier ∈ before.entries, ∀ entry ∈ upkeep.list.entries,
    entry.ipAddress = earlier.ipAddress → entry.Remembers earlier

theorem Grown.wellKept {before : ServerList} {upkeep : Upkeep}
    (hGrown : Grown before.entries upkeep.list.entries upkeep.added upkeep.taken)
    (hDistinct : before.addresses.Nodup) : WellKept before upkeep where
  distinct := hGrown.distinct hDistinct
  addresses := hGrown.addresses
  length := hGrown.length
  remembered := by
    intro earlier hEarlier entry hEntry hSame
    obtain ⟨kept, hKept, hRemembers⟩ := hGrown.remembered earlier hEarlier
    -- Addresses are distinct, so the entry that remembers is the one of that address.
    have hUnique : entry = kept :=
      List.inj_on_of_nodup_map (hGrown.distinct hDistinct) hEntry hKept
        (hSame.trans hRemembers.address.symm)
    rw [hUnique]
    exact hRemembers

/-- Whatever calls were made on a list of distinct addresses, and whatever calls
follow: the addresses are distinct after each of them, none is ever lost, the
list grows by exactly what the merges count as added, and a protocol or a front
that was once set is never unset. -/
theorem wellKept_over_any_calls {list : ServerList} (hDistinct : list.addresses.Nodup)
    (earlier later : List Operation) :
    WellKept (list.operateAll earlier).list
      ((list.operateAll earlier).list.operateAll later) := by
  have hEarlier := (grown_operateAll earlier list).distinct hDistinct
  exact (grown_operateAll later (list.operateAll earlier).list).wellKept hEarlier

namespace Sample

/-- A list with a remote source. -/
def stored : ServerList where
  entries := [{ ipAddress := "a", connType := some .ossh }, .ofAddress "b", .ofAddress "c"]
  hasRemote := true

/-- A new address is fetched twice; one winner is unknown and another repeated. -/
def mergedAndMoved : List Operation :=
  [.merge [.ofAddress "d", { ipAddress := "d", region := "NL" }],
    .moveToFront [.ofAddress "x", { ipAddress := "b", front := some "f" }, .ofAddress "b"]]

/-- Two refreshes, the second of which has no answer. -/
def refreshed : List Operation :=
  [.refresh 1 (.ok [.ofAddress "b", .ofAddress "e", .ofAddress "e"]),
    .refresh 2 (.error .aborted)]

end Sample

/-- Four addresses become five, and `b` has still the front that its winner wrote
back although the remote source knows of none. -/
theorem front_kept_over_a_refresh :
    Sample.stored.addresses.Nodup ∧
      ((Sample.stored.operateAll Sample.mergedAndMoved).list.operateAll
          Sample.refreshed).list.entries.map (fun entry => (entry.ipAddress, entry.front)) =
        [("b", some "f"), ("a", none), ("c", none), ("d", none), ("e", none)] ∧
      WellKept (Sample.stored.operateAll Sample.mergedAndMoved).list
        ((Sample.stored.operateAll Sample.mergedAndMoved).list.operateAll Sample.refreshed) := by
  have hDistinct : Sample.stored.addresses.Nodup := by decide +kernel
  exact ⟨hDistinct, by decide +kernel,
    wellKept_over_any_calls hDistinct Sample.mergedAndMoved Sample.refreshed⟩

end ServerList

end RelayRace
