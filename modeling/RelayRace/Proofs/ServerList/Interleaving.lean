import RelayRace.Proofs.ServerList.Upkeep

/-!
# A reorder and a refresh in either order

A round moves its winners to the front of a list that may have been refreshed
since the round began.  The two do not disturb each other as long as the winners
were in the list before and the fetched entries leave the written-back fields
open: it does not matter which comes first.  Repeated addresses, among the
entries, the winners or the fetched entries, make no difference.

The argument goes through one fetched entry at a time.  Its address stands either
in front already, where only the addresses matter to the moves that are still to
come, or behind, where the move finds the replaced entry in the place of the old
one.
-/

namespace RelayRace

namespace Candidate

/-- What was written back can be taken over before or after the other fields are
replaced. -/
theorem replacedBy_takeWrittenBack {fetched : Candidate} (hConnType : fetched.connType = none)
    (hFront : fetched.front = none) (entry winner : Candidate) :
    (entry.takeWrittenBack winner).replacedBy fetched =
      (entry.replacedBy fetched).takeWrittenBack winner := by
  simp only [replacedBy, takeWrittenBack, hConnType, hFront, Option.none_or]

end Candidate

namespace ServerList

/-! ## One fetched entry -/

/-- Only the addresses of the entries in front decide what comes behind them. -/
theorem exists_behind {front other : List Candidate}
    (hSame : front.map Candidate.ipAddress = other.map Candidate.ipAddress)
    (entries winners : List Candidate) :
    ∃ behind, moveOnto front entries winners = front ++ behind ∧
      moveOnto other entries winners = other ++ behind := by
  have hAny : ∀ (l : List Candidate) (winner : Candidate),
      (l.any fun entry => entry.sameServer winner) =
        (l.map Candidate.ipAddress).any fun address => address == winner.ipAddress := by
    intro l winner
    rw [List.any_map]
    rfl
  have hNew : isNew front = isNew other := by
    funext winner
    rw [isNew, isNew, hAny front, hAny other, hSame]
  exact ⟨_, by rw [moveOnto_eq, List.append_assoc], by rw [moveOnto_eq, List.append_assoc, hNew]⟩

section OneEntry

variable {fetched : Candidate}

/-- An address that is in front is not moved again, so its entry can be replaced
there before or after the moves. -/
theorem moveOnto_upsert_front {front : List Candidate}
    (hFront : fetched.ipAddress ∈ front.map Candidate.ipAddress)
    (entries winners : List Candidate) :
    moveOnto (upsert fetched front).1 entries winners =
      (upsert fetched (moveOnto front entries winners)).1 := by
  have hSame : (upsert fetched front).1.map Candidate.ipAddress =
      front.map Candidate.ipAddress := addresses_upsert_of_mem hFront
  obtain ⟨behind, hReplaced, hMoved⟩ := exists_behind hSame entries winners
  rw [hReplaced, hMoved, upsert_append_of_mem hFront]

/-- A fetched entry can be taken in behind the front before or after the moves,
if a winner of its address has an entry to be moved. -/
theorem moveOnto_upsert (hConnType : fetched.connType = none) (hUnfronted : fetched.front = none)
    (winners : List Candidate) :
    ∀ front entries : List Candidate,
      fetched.ipAddress ∉ front.map Candidate.ipAddress →
      (∀ winner ∈ winners, fetched.ipAddress = winner.ipAddress →
        fetched.ipAddress ∈ entries.map Candidate.ipAddress) →
      moveOnto front (upsert fetched entries).1 winners =
        (upsert fetched (moveOnto front entries winners)).1 := by
  induction winners with
  | nil =>
      intro front entries hFront _
      show front ++ (upsert fetched entries).1 = (upsert fetched (front ++ entries)).1
      rw [upsert_append_of_not_mem hFront]
  | cons winner rest ih =>
      intro front entries hFront hKnown
      have hTest : ∀ entry : Candidate,
          entry.sameServer winner = true ↔ entry.ipAddress = winner.ipAddress :=
        fun _ => sameServer_iff
      have hRest : ∀ other ∈ rest, fetched.ipAddress = other.ipAddress →
          fetched.ipAddress ∈ entries.map Candidate.ipAddress :=
        fun other hMem => hKnown other (List.mem_cons_of_mem _ hMem)
      rw [moveOnto, moveOnto]
      by_cases hMoved : (front.any fun moved => moved.sameServer winner) = true
      · rw [if_pos hMoved, if_pos hMoved]
        exact ih front entries hFront hRest
      · rw [if_neg hMoved, if_neg hMoved]
        by_cases hSame : fetched.ipAddress = winner.ipAddress
        · have hHere := hKnown winner List.mem_cons_self hSame
          obtain ⟨found, hFind⟩ := exists_find?_of_mem hTest (hSame ▸ hHere)
          have hFound : found.ipAddress = fetched.ipAddress :=
            (ipAddress_of_find? hFind).trans hSame.symm
          have hMem : fetched.ipAddress ∈
              (front ++ [found.takeWrittenBack winner]).map Candidate.ipAddress := by
            simp [hFound]
          rw [find?_upsert_same hTest hSame hFind, hFind, eraseP_upsert_same hTest hSame]
          show moveOnto (front ++ [(found.replacedBy fetched).takeWrittenBack winner]) _ rest =
            (upsert fetched (moveOnto (front ++ [found.takeWrittenBack winner]) _ rest)).1
          rw [← moveOnto_upsert_front hMem, upsert_append_of_not_mem hFront,
            upsert_cons_same (by exact hFound),
            Candidate.replacedBy_takeWrittenBack hConnType hUnfronted]
        · rw [find?_upsert_other hTest hSame, eraseP_upsert_other hTest hSame]
          split
          · rename_i found hFind
            have hFound := ipAddress_of_find? hFind
            apply ih
            · rw [List.map_append, List.mem_append, not_or]
              refine ⟨hFront, fun hMem => hSame ?_⟩
              exact (List.mem_singleton.mp hMem).trans hFound
            · intro other hMem hEq
              have hPerm := (perm_of_find? hFind).map Candidate.ipAddress
              rcases List.mem_cons.mp (hPerm.mem_iff.mpr (hRest other hMem hEq)) with
                hHead | hOthers
              · exact absurd (hHead.trans hFound) hSame
              · exact hOthers
          · exact ih front entries hFront hRest

/-- Taking in one fetched entry before or after a reorder comes to the same list
and the same count, if every winner has an entry. -/
theorem upsert_moveOnto (hConnType : fetched.connType = none) (hUnfronted : fetched.front = none)
    {entries winners : List Candidate}
    (hKnown : ∀ winner ∈ winners, winner.ipAddress ∈ entries.map Candidate.ipAddress) :
    upsert fetched (moveOnto [] entries winners) =
      (moveOnto [] (upsert fetched entries).1 winners, (upsert fetched entries).2) := by
  have hList := moveOnto_upsert hConnType hUnfronted winners [] entries List.not_mem_nil
    fun winner hMem hSame => hSame ▸ hKnown winner hMem
  have hAddresses : fetched.ipAddress ∈ (moveOnto [] entries winners).map Candidate.ipAddress ↔
      fetched.ipAddress ∈ entries.map Candidate.ipAddress := by
    rw [(grown_moveOnto winners [] entries).addresses]
    exact or_iff_left List.not_mem_nil
  have hCount : (upsert fetched (moveOnto [] entries winners)).2 = (upsert fetched entries).2 := by
    rw [count_upsert, count_upsert, if_congr hAddresses rfl rfl]
  exact Prod.ext hList.symm hCount

end OneEntry

/-! ## All fetched entries -/

/-- Merging before or after a reorder comes to the same list and the same count. -/
theorem mergeInto_moveOnto {winners : List Candidate} (fetched : List Candidate)
    (hOpen : ∀ candidate ∈ fetched, candidate.connType = none ∧ candidate.front = none) :
    ∀ entries : List Candidate,
      (∀ winner ∈ winners, winner.ipAddress ∈ entries.map Candidate.ipAddress) →
      mergeInto (moveOnto [] entries winners) fetched =
        (moveOnto [] (mergeInto entries fetched).1 winners, (mergeInto entries fetched).2) := by
  induction fetched with
  | nil =>
      intro entries _
      rfl
  | cons first rest ih =>
      intro entries hKnown
      obtain ⟨hConnType, hUnfronted⟩ := hOpen first List.mem_cons_self
      have hStill : ∀ winner ∈ winners,
          winner.ipAddress ∈ (upsert first entries).1.map Candidate.ipAddress := by
        intro winner hMem
        rw [(grown_upsert first entries).addresses]
        exact .inl (hKnown winner hMem)
      have hRest := ih (fun candidate hMem => hOpen candidate (List.mem_cons_of_mem _ hMem))
        (upsert first entries).1 hStill
      rw [mergeInto, mergeInto, upsert_moveOnto hConnType hUnfronted hKnown]
      show ((mergeInto (moveOnto [] (upsert first entries).1 winners) rest).1, _) = _
      rw [hRest]

/-- Whatever is in the list, whoever won and whatever was fetched: if each winner
has an entry and no fetched entry has a protocol or a front, merging and moving
to the front come to the same list in either order, and the merge counts the
same.  So do a refresh, whose answer is merged if it asks for one, and the move. -/
theorem merge_moveToFront_comm {list : ServerList} {winners fetched : List Candidate}
    (hKnown : ∀ winner ∈ winners, winner.ipAddress ∈ list.addresses)
    (hOpen : ∀ candidate ∈ fetched, candidate.connType = none ∧ candidate.front = none) :
    (list.merge fetched).1.moveToFront winners = ((list.moveToFront winners).merge fetched).1 ∧
      (list.merge fetched).2 = ((list.moveToFront winners).merge fetched).2 ∧
      ∀ now,
        (list.refresh now (.ok fetched)).2.moveToFront winners =
            ((list.moveToFront winners).refresh now (.ok fetched)).2 ∧
          (list.refresh now (.ok fetched)).1 =
            ((list.moveToFront winners).refresh now (.ok fetched)).1 := by
  have hMerge : (list.moveToFront winners).merge fetched =
      ((list.merge fetched).1.moveToFront winners, (list.merge fetched).2) := by
    have hEntries := mergeInto_moveOnto fetched hOpen list.entries hKnown
    show ({ list with entries := (mergeInto (moveOnto [] list.entries winners) fetched).1 },
      (mergeInto (moveOnto [] list.entries winners) fetched).2) = _
    rw [hEntries]
    rfl
  refine ⟨(congrArg Prod.fst hMerge).symm, (congrArg Prod.snd hMerge).symm, fun now => ?_⟩
  have hAlso : (list.moveToFront winners).asksRemote now = list.asksRemote now := rfl
  cases hAsks : list.asksRemote now with
  | false =>
      rw [refresh_of_not_asks hAsks, refresh_of_not_asks (hAlso.trans hAsks)]
      exact ⟨rfl, rfl⟩
  | true =>
      rw [refresh_of_asks hAsks, refresh_of_asks (hAlso.trans hAsks)]
      show _ = { ((list.moveToFront winners).merge fetched).1 with refreshedAt := some now } ∧
        _ = Refresh.merged ((list.moveToFront winners).merge fetched).2
      rw [hMerge]
      exact ⟨rfl, rfl⟩

namespace Sample

/-- A list that names `b` twice. -/
def doubled : ServerList where
  entries := [{ ipAddress := "a", connType := some .ossh }, .ofAddress "b", .ofAddress "c",
    { ipAddress := "b", region := "NL" }]

/-- Winners that name `b` twice, as a round over that list may have them. -/
def winners : List Candidate :=
  [{ ipAddress := "b", front := some "f" }, .ofAddress "a", { ipAddress := "b", front := some "g" }]

/-- Fetched entries that name `b` and the new `d` twice. -/
def fetched : List Candidate :=
  [{ ipAddress := "b", region := "SE" }, .ofAddress "d", { ipAddress := "d", region := "DE" },
    { ipAddress := "b", region := "FI" }]

end Sample

/-- The first `b` has the region that was fetched last and the front of its first
winner in either order, and the other one is left alone. -/
theorem doubled_entries_in_either_order :
    (∀ winner ∈ Sample.winners, winner.ipAddress ∈ Sample.doubled.addresses) ∧
      (∀ candidate ∈ Sample.fetched, candidate.connType = none ∧ candidate.front = none) ∧
      (Sample.doubled.merge Sample.fetched).1.moveToFront Sample.winners =
        ((Sample.doubled.moveToFront Sample.winners).merge Sample.fetched).1 ∧
      ((Sample.doubled.moveToFront Sample.winners).merge Sample.fetched).1.entries.map
          (fun entry => (entry.ipAddress, entry.region, entry.front)) =
        [("b", "FI", some "f"), ("a", "", none), ("c", "", none), ("b", "NL", none),
          ("d", "DE", none)] := by
  have hKnown : ∀ winner ∈ Sample.winners, winner.ipAddress ∈ Sample.doubled.addresses := by
    decide +kernel
  have hOpen : ∀ candidate ∈ Sample.fetched,
      candidate.connType = none ∧ candidate.front = none := by
    decide +kernel
  exact ⟨hKnown, hOpen, (merge_moveToFront_comm hKnown hOpen).1, by decide +kernel⟩

end ServerList

end RelayRace
