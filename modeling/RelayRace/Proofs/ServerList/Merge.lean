import RelayRace.Proofs.ServerList

/-!
# What taking in a fetched entry does to the list

Taking in one fetched entry does one of two things (`Upserted`): it replaces the
first entry with its address, in its place, or it adds the fetched entry at the
end because no entry has its address.  Whatever is said of merging below follows
from these two cases and an induction over the fetched entries.
-/

namespace RelayRace

namespace ServerList

/-! ## One fetched entry -/

/-- All that taking in one fetched entry can do, with the count it gives. -/
inductive Upserted (fetched : Candidate) : List Candidate → List Candidate × Nat → Prop
  /-- The first entry with its address is replaced. -/
  | replaced (before : List Candidate) (entry : Candidate) (after : List Candidate)
      (first : ∀ other ∈ before, other.ipAddress ≠ fetched.ipAddress)
      (same : entry.ipAddress = fetched.ipAddress) :
      Upserted fetched (before ++ entry :: after) (before ++ entry.replacedBy fetched :: after, 0)
  /-- No entry has its address, and it is added at the end. -/
  | added (entries : List Candidate)
      (new : ∀ other ∈ entries, other.ipAddress ≠ fetched.ipAddress) :
      Upserted fetched entries (entries ++ [fetched], 1)

theorem upsert_cons_same {fetched entry : Candidate} (hSame : entry.ipAddress = fetched.ipAddress)
    (rest : List Candidate) :
    upsert fetched (entry :: rest) = (entry.replacedBy fetched :: rest, 0) := by
  rw [upsert, if_pos (sameServer_iff.mpr hSame)]

theorem upsert_cons_other {fetched entry : Candidate}
    (hOther : entry.ipAddress ≠ fetched.ipAddress) (rest : List Candidate) :
    upsert fetched (entry :: rest) =
      (entry :: (upsert fetched rest).1, (upsert fetched rest).2) := by
  rw [upsert, if_neg fun hSame => hOther (sameServer_iff.mp hSame)]

theorem upserted (fetched : Candidate) (entries : List Candidate) :
    Upserted fetched entries (upsert fetched entries) := by
  induction entries with
  | nil =>
      show Upserted fetched [] ([] ++ [fetched], 1)
      exact .added [] fun _ hMem => absurd hMem List.not_mem_nil
  | cons entry rest ih =>
      by_cases hSame : entry.ipAddress = fetched.ipAddress
      · rw [upsert_cons_same hSame]
        exact .replaced [] entry rest (fun _ hMem => absurd hMem List.not_mem_nil) hSame
      · rw [upsert_cons_other hSame]
        generalize upsert fetched rest = result at ih
        cases ih with
        | replaced before found after hFirst hFound =>
            refine .replaced (entry :: before) found after (fun other hMem => ?_) hFound
            rcases List.mem_cons.mp hMem with rfl | hBefore
            · exact hSame
            · exact hFirst other hBefore
        | added _ hNew =>
            refine .added (entry :: rest) fun other hMem => ?_
            rcases List.mem_cons.mp hMem with rfl | hRest
            · exact hSame
            · exact hNew other hRest

/-- A replaced entry keeps its address in its place. -/
theorem addresses_replaced {fetched entry : Candidate} (hSame : entry.ipAddress = fetched.ipAddress)
    (before after : List Candidate) :
    (before ++ entry.replacedBy fetched :: after).map Candidate.ipAddress =
      (before ++ entry :: after).map Candidate.ipAddress := by
  rw [List.map_append, List.map_append, List.map_cons, List.map_cons,
    Candidate.replacedBy_ipAddress, hSame]

/-- An address is counted as added when no entry has it. -/
theorem count_upsert (fetched : Candidate) (entries : List Candidate) :
    (upsert fetched entries).2 =
      if fetched.ipAddress ∈ entries.map Candidate.ipAddress then 0 else 1 := by
  have hUpserted := upserted fetched entries
  generalize upsert fetched entries = result at hUpserted
  cases hUpserted with
  | replaced before entry after _ hSame =>
      have hMem : fetched.ipAddress ∈ (before ++ entry :: after).map Candidate.ipAddress := by
        rw [← hSame]
        exact List.mem_map_of_mem (List.mem_append_right _ List.mem_cons_self)
      rw [if_pos hMem]
  | added _ hNew =>
      have hNot : fetched.ipAddress ∉ entries.map Candidate.ipAddress := by
        intro hMem
        obtain ⟨entry, hEntry, hSame⟩ := List.mem_map.mp hMem
        exact hNew entry hEntry hSame
      rw [if_neg hNot]

/-- Taking in an address that is there leaves the addresses as they are. -/
theorem addresses_upsert_of_mem {fetched : Candidate} {entries : List Candidate}
    (hMem : fetched.ipAddress ∈ entries.map Candidate.ipAddress) :
    (upsert fetched entries).1.map Candidate.ipAddress = entries.map Candidate.ipAddress := by
  have hUpserted := upserted fetched entries
  generalize upsert fetched entries = result at hUpserted
  cases hUpserted with
  | replaced before entry after _ hSame => exact addresses_replaced hSame before after
  | added _ hNew =>
      obtain ⟨entry, hEntry, hSame⟩ := List.mem_map.mp hMem
      exact absurd hSame (hNew entry hEntry)

/-! ## Lists in two parts -/

/-- An address that the first part has is looked for there only. -/
theorem upsert_append_of_mem {fetched : Candidate} {front : List Candidate}
    (hFront : fetched.ipAddress ∈ front.map Candidate.ipAddress) (rest : List Candidate) :
    upsert fetched (front ++ rest) = ((upsert fetched front).1 ++ rest, 0) := by
  induction front with
  | nil => exact absurd hFront List.not_mem_nil
  | cons entry others ih =>
      by_cases hSame : entry.ipAddress = fetched.ipAddress
      · rw [List.cons_append, upsert_cons_same hSame, upsert_cons_same hSame, List.cons_append]
      · have hOthers : fetched.ipAddress ∈ others.map Candidate.ipAddress := by
          rcases List.mem_cons.mp hFront with hHead | hTail
          · exact absurd hHead.symm hSame
          · exact hTail
        rw [List.cons_append, upsert_cons_other hSame, upsert_cons_other hSame, ih hOthers,
          List.cons_append]

/-- An address that the first part lacks is looked for in the second. -/
theorem upsert_append_of_not_mem {fetched : Candidate} {front : List Candidate}
    (hFront : fetched.ipAddress ∉ front.map Candidate.ipAddress) (rest : List Candidate) :
    upsert fetched (front ++ rest) =
      (front ++ (upsert fetched rest).1, (upsert fetched rest).2) := by
  induction front with
  | nil => rfl
  | cons entry others ih =>
      rw [List.map_cons, List.mem_cons, not_or] at hFront
      obtain ⟨hHead, hTail⟩ := hFront
      rw [List.cons_append, upsert_cons_other fun hSame => hHead hSame.symm, ih hTail,
        List.cons_append]

/-! ## Looking for an entry by its address -/

section Search

variable {fetched : Candidate} {address : String} {test : Candidate → Bool}

theorem exists_find?_of_mem (hTest : ∀ entry, test entry = true ↔ entry.ipAddress = address)
    {entries : List Candidate} (hMem : address ∈ entries.map Candidate.ipAddress) :
    ∃ found, entries.find? test = some found := by
  obtain ⟨entry, hEntry, hSame⟩ := List.mem_map.mp hMem
  exact Option.isSome_iff_exists.mp
    (List.find?_isSome.mpr ⟨entry, hEntry, (hTest entry).mpr hSame⟩)

/-- The first entry of another address is the one that it was before. -/
theorem find?_upsert_other (hTest : ∀ entry, test entry = true ↔ entry.ipAddress = address)
    (hOther : fetched.ipAddress ≠ address) (entries : List Candidate) :
    (upsert fetched entries).1.find? test = entries.find? test := by
  have hNot : ∀ entry, entry.ipAddress = fetched.ipAddress → ¬(test entry = true) := by
    intro entry hSame hFound
    exact hOther (hSame.symm.trans ((hTest entry).mp hFound))
  induction entries with
  | nil => exact List.find?_cons_of_neg (hNot fetched rfl)
  | cons entry rest ih =>
      by_cases hSame : entry.ipAddress = fetched.ipAddress
      · rw [upsert_cons_same hSame, List.find?_cons_of_neg (hNot entry hSame)]
        exact List.find?_cons_of_neg (hNot (entry.replacedBy fetched) rfl)
      · rw [upsert_cons_other hSame, List.find?_cons, List.find?_cons, ih]

/-- The first entry of another address can be taken out before or after. -/
theorem eraseP_upsert_other (hTest : ∀ entry, test entry = true ↔ entry.ipAddress = address)
    (hOther : fetched.ipAddress ≠ address) (entries : List Candidate) :
    (upsert fetched entries).1.eraseP test = (upsert fetched (entries.eraseP test)).1 := by
  have hNot : ∀ entry, entry.ipAddress = fetched.ipAddress → ¬(test entry = true) := by
    intro entry hSame hFound
    exact hOther (hSame.symm.trans ((hTest entry).mp hFound))
  induction entries with
  | nil => exact List.eraseP_cons_of_neg (hNot fetched rfl)
  | cons entry rest ih =>
      by_cases hSame : entry.ipAddress = fetched.ipAddress
      · rw [List.eraseP_cons_of_neg (hNot entry hSame), upsert_cons_same hSame,
          upsert_cons_same hSame]
        exact List.eraseP_cons_of_neg (hNot (entry.replacedBy fetched) rfl)
      · rw [upsert_cons_other hSame]
        by_cases hFound : test entry = true
        · rw [List.eraseP_cons_of_pos hFound, List.eraseP_cons_of_pos hFound]
        · rw [List.eraseP_cons_of_neg hFound, List.eraseP_cons_of_neg hFound,
            upsert_cons_other hSame, ih]

/-- The first entry of the fetched address is the one that took the place of the
first one. -/
theorem find?_upsert_same (hTest : ∀ entry, test entry = true ↔ entry.ipAddress = address)
    (hSame : fetched.ipAddress = address) {entries : List Candidate} {found : Candidate}
    (hFind : entries.find? test = some found) :
    (upsert fetched entries).1.find? test = some (found.replacedBy fetched) := by
  induction entries with
  | nil => cases hFind
  | cons entry rest ih =>
      by_cases hEntry : test entry = true
      · rw [List.find?_cons_of_pos hEntry, Option.some.injEq] at hFind
        rw [upsert_cons_same (((hTest entry).mp hEntry).trans hSame.symm), hFind]
        exact List.find?_cons_of_pos ((hTest (found.replacedBy fetched)).mpr hSame)
      · have hOther : entry.ipAddress ≠ fetched.ipAddress := fun h =>
          hEntry ((hTest entry).mpr (h.trans hSame))
        rw [List.find?_cons_of_neg hEntry] at hFind
        rw [upsert_cons_other hOther, List.find?_cons_of_neg hEntry, ih hFind]

/-- Without its first entry of the fetched address the list is as before. -/
theorem eraseP_upsert_same (hTest : ∀ entry, test entry = true ↔ entry.ipAddress = address)
    (hSame : fetched.ipAddress = address) (entries : List Candidate) :
    (upsert fetched entries).1.eraseP test = entries.eraseP test := by
  induction entries with
  | nil => exact List.eraseP_cons_of_pos ((hTest fetched).mpr hSame)
  | cons entry rest ih =>
      by_cases hEntry : test entry = true
      · rw [upsert_cons_same (((hTest entry).mp hEntry).trans hSame.symm),
          List.eraseP_cons_of_pos hEntry]
        exact List.eraseP_cons_of_pos ((hTest (entry.replacedBy fetched)).mpr hSame)
      · have hOther : entry.ipAddress ≠ fetched.ipAddress := fun h =>
          hEntry ((hTest entry).mpr (h.trans hSame))
        rw [upsert_cons_other hOther, List.eraseP_cons_of_neg hEntry,
          List.eraseP_cons_of_neg hEntry, ih]

end Search

/-! ## A refresh -/

/-- A refresh that does not ask leaves the list alone. -/
theorem refresh_of_not_asks {list : ServerList} {now : Instant}
    (hAsks : list.asksRemote now = false) (answer : Except Failure (List Candidate)) :
    list.refresh now answer = (if list.hasRemote then .recent else .noRemote, list) := by
  unfold refresh
  cases hRemote : list.hasRemote with
  | false => rfl
  | true =>
      have hDue : list.isDue now = false := by
        rwa [asksRemote, hRemote, Bool.true_and] at hAsks
      rw [hDue]
      rfl

/-- A refresh that asks merges the answer and keeps the time of it; without an
answer it leaves the list alone. -/
theorem refresh_of_asks {list : ServerList} {now : Instant}
    (hAsks : list.asksRemote now = true) (answer : Except Failure (List Candidate)) :
    list.refresh now answer =
      match answer with
      | .error failure => (.failed (.remoteFetch failure.message), list)
      | .ok fetched =>
          (.merged (list.merge fetched).2,
            { (list.merge fetched).1 with refreshedAt := some now }) := by
  obtain ⟨hRemote, hDue⟩ := Bool.and_eq_true_iff.mp hAsks
  unfold refresh
  rw [hRemote, hDue]
  cases answer <;> rfl

end ServerList

end RelayRace
