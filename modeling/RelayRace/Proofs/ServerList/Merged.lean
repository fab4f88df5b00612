import RelayRace.Proofs.ServerList.Merge

/-!
# The list after a merge

Fetched entries are taken in one after the other, and an entry that one of them
added may be replaced by a later one.  The same is told here entry by entry
(`MergesTo`): each stored entry takes all that is fetched for its address, one
after the other, and leaves nothing of it to the entries behind it; and what no
stored entry takes is added at the end, one entry for each address.

What an entry comes to that takes several fetched ones is the last of them, but
for the two fields that a probe may have written back, which are what was set
last (`lastSet`).  From this follow the new list at once (`Reconciled`) and that
merging the same entries once more changes nothing.
-/

namespace RelayRace

/-! ## What was set last -/

/-- What was set last, if anything was set. -/
def lastSet {α : Type} (values : List (Option α)) : Option α := (values.filterMap id).getLast?

theorem lastSet_cons {α : Type} (value : Option α) (values : List (Option α)) :
    lastSet (value :: values) = (lastSet values).or value := by
  cases value with
  | none =>
      rw [Option.or_none]
      rfl
  | some a =>
      have hSet : (some a :: values).filterMap id = a :: values.filterMap id := rfl
      rw [lastSet, lastSet, hSet, List.getLast?_cons]
      cases (values.filterMap id).getLast? <;> rfl

theorem lastSet_append_singleton {α : Type} (values : List (Option α)) (value : Option α) :
    lastSet (values ++ [value]) = value.or (lastSet values) := by
  rw [lastSet, List.filterMap_append, List.getLast?_append]
  cases value <;> rfl

/-- A later value goes before an earlier one. -/
theorem lastSet_cons_cons {α : Type} (early late : Option α) (values : List (Option α)) :
    lastSet (early :: late :: values) = lastSet (late.or early :: values) := by
  rw [lastSet_cons, lastSet_cons, lastSet_cons, Option.or_assoc]

namespace Candidate

/-- Replacing an entry by several fetched ones comes to the last of them, with
what was set last of the two fields that may be open. -/
theorem foldl_replacedBy {fetched : List Candidate} {last : Candidate}
    (hLast : fetched.getLast? = some last) (entry : Candidate) :
    fetched.foldl replacedBy entry =
      { last with
        connType := lastSet (entry.connType :: fetched.map connType)
        front := lastSet (entry.front :: fetched.map front) } := by
  induction fetched generalizing entry with
  | nil => cases hLast
  | cons first rest ih =>
      rw [List.foldl_cons, List.map_cons, List.map_cons, lastSet_cons_cons, lastSet_cons_cons]
      cases rest with
      | nil =>
          obtain rfl : first = last := Option.some.inj hLast
          simp [lastSet, replacedBy]
      | cons second more =>
          exact ih (List.getLast?_cons_cons.symm.trans hLast) (entry.replacedBy first)

theorem replacedBy_self (entry : Candidate) : entry.replacedBy entry = entry := by
  simp only [replacedBy, Option.or_self]

/-- Replacing an entry by the same ones once more changes nothing. -/
theorem foldl_replacedBy_again (fetched : List Candidate) (entry : Candidate) :
    fetched.foldl replacedBy (fetched.foldl replacedBy entry) =
      fetched.foldl replacedBy entry := by
  cases hLast : fetched.getLast? with
  | none => rw [List.getLast?_eq_none_iff.mp hLast]; rfl
  | some last =>
      rw [foldl_replacedBy hLast, foldl_replacedBy hLast]
      simp only [lastSet_cons, ← Option.or_assoc, Option.or_self]

end Candidate

namespace ServerList

/-! ## What is fetched for an address -/

/-- The entries that were fetched for an address, in their order. -/
def versions (fetched : List Candidate) (address : String) : List Candidate :=
  fetched.filter fun entry => entry.ipAddress == address

/-- The entries that were fetched for other addresses. -/
def others (fetched : List Candidate) (address : String) : List Candidate :=
  fetched.filter fun entry => entry.ipAddress != address

/-- The addresses that were fetched and are not stored, in the order in which
they first appear among the fetched entries. -/
def arrivals (entries fetched : List Candidate) : List String :=
  ((fetched.map Candidate.ipAddress).filter fun address =>
    address ∉ entries.map Candidate.ipAddress).eraseDups

/-- What becomes of an entry of which some versions were fetched: the last one, but
for the protocol and the front.  Each of these is what was set last among that of
the old entry, if there was one, and those of the versions. -/
def renewal (old : Option Candidate) (versions : List Candidate) : Option Candidate :=
  versions.getLast?.map fun last =>
    { last with
      connType := lastSet (old.bind Candidate.connType :: versions.map Candidate.connType)
      front := lastSet (old.bind Candidate.front :: versions.map Candidate.front) }

/-- An entry after all that was fetched for its address. -/
def renewedBy (fetched : List Candidate) (entry : Candidate) : Candidate :=
  (versions fetched entry.ipAddress).foldl Candidate.replacedBy entry

variable {fetched : List Candidate} {entry : Candidate} {address : String}

theorem versions_cons_same (hSame : entry.ipAddress = address) :
    versions (entry :: fetched) address = entry :: versions fetched address :=
  List.filter_cons_of_pos (beq_iff_eq.mpr hSame)

theorem versions_cons_other (hOther : entry.ipAddress ≠ address) :
    versions (entry :: fetched) address = versions fetched address :=
  List.filter_cons_of_neg fun hSame => hOther (beq_iff_eq.mp hSame)

theorem others_cons_same (hSame : entry.ipAddress = address) :
    others (entry :: fetched) address = others fetched address :=
  List.filter_cons_of_neg fun hOther => bne_iff_ne.mp hOther hSame

theorem others_cons_other (hOther : entry.ipAddress ≠ address) :
    others (entry :: fetched) address = entry :: others fetched address :=
  List.filter_cons_of_pos (bne_iff_ne.mpr hOther)

/-- Leaving out one address leaves the versions of another. -/
theorem versions_others {other : String} (hOther : address ≠ other) :
    versions (others fetched address) other = versions fetched other := by
  rw [versions, others, List.filter_filter]
  refine List.filter_congr fun entry _ => ?_
  by_cases hSame : entry.ipAddress = other
  · simp [hSame, hOther.symm]
  · simp [hSame]

theorem ipAddress_foldl_replacedBy (hSame : ∀ version ∈ fetched, version.ipAddress = address)
    (hEntry : entry.ipAddress = address) :
    (fetched.foldl Candidate.replacedBy entry).ipAddress = address := by
  induction fetched generalizing entry with
  | nil => exact hEntry
  | cons first rest ih =>
      exact ih (fun version hMem => hSame version (List.mem_cons_of_mem _ hMem))
        (hSame first List.mem_cons_self)

theorem ipAddress_renewedBy (fetched : List Candidate) (entry : Candidate) :
    (renewedBy fetched entry).ipAddress = entry.ipAddress := by
  refine ipAddress_foldl_replacedBy (fun version hMem => ?_) rfl
  exact beq_iff_eq.mp (List.mem_filter.mp hMem).2

theorem renewedBy_renewedBy (fetched : List Candidate) (entry : Candidate) :
    renewedBy fetched (renewedBy fetched entry) = renewedBy fetched entry := by
  rw [renewedBy, ipAddress_renewedBy]
  exact Candidate.foldl_replacedBy_again _ entry

theorem mem_others {other : String} (hMem : other ∈ fetched.map Candidate.ipAddress)
    (hOther : address ≠ other) : other ∈ (others fetched address).map Candidate.ipAddress := by
  obtain ⟨version, hVersion, rfl⟩ := List.mem_map.mp hMem
  exact List.mem_map_of_mem (List.mem_filter.mpr ⟨hVersion, bne_iff_ne.mpr hOther.symm⟩)

theorem mem_of_mem_others {other : String}
    (hMem : other ∈ (others fetched address).map Candidate.ipAddress) :
    other ∈ fetched.map Candidate.ipAddress :=
  (List.filter_sublist.map Candidate.ipAddress).subset hMem

theorem not_mem_others : address ∉ (others fetched address).map Candidate.ipAddress := by
  intro hMem
  obtain ⟨version, hVersion, hSame⟩ := List.mem_map.mp hMem
  exact bne_iff_ne.mp (List.mem_filter.mp hVersion).2 hSame

theorem versions_ne_nil (hMem : address ∈ fetched.map Candidate.ipAddress) :
    versions fetched address ≠ [] := by
  obtain ⟨version, hVersion, hSame⟩ := List.mem_map.mp hMem
  exact List.ne_nil_of_mem (List.mem_filter.mpr ⟨hVersion, beq_iff_eq.mpr hSame⟩)

theorem renewedBy_of_not_fetched (hNot : entry.ipAddress ∉ fetched.map Candidate.ipAddress) :
    renewedBy fetched entry = entry := by
  have hNone : versions fetched entry.ipAddress = [] := by
    refine List.filter_eq_nil_iff.mpr fun version hMem hSame => hNot ?_
    rw [← beq_iff_eq.mp hSame]
    exact List.mem_map_of_mem hMem
  rw [renewedBy, hNone]
  rfl

/-- A stored entry of which versions were fetched. -/
theorem renewal_stored (entry : Candidate) {versions : List Candidate} (hSome : versions ≠ []) :
    renewal (some entry) versions = some (versions.foldl Candidate.replacedBy entry) := by
  have hLast := List.getLast?_eq_some_getLast hSome
  rw [renewal, hLast, Candidate.foldl_replacedBy hLast]
  rfl

/-- An entry that was not stored is there from its first version on. -/
theorem renewal_new (first : Candidate) (rest : List Candidate) :
    renewal none (first :: rest) =
      some ((first :: rest).foldl Candidate.replacedBy first) := by
  rw [← renewal_stored first (List.cons_ne_nil first rest)]
  simp only [renewal, Option.bind_none, Option.bind_some, List.map_cons, lastSet_cons_cons,
    Option.or_none, Option.or_self]

theorem map_ipAddress_others (fetched : List Candidate) (address : String) :
    (others fetched address).map Candidate.ipAddress =
      (fetched.map Candidate.ipAddress).filter fun other => other != address := by
  rw [List.filter_map]
  rfl

theorem arrivals_nil (fetched : List Candidate) :
    arrivals [] fetched = (fetched.map Candidate.ipAddress).eraseDups := by
  have hAll : ((fetched.map Candidate.ipAddress).filter fun address =>
      address ∉ ([] : List Candidate).map Candidate.ipAddress) =
        fetched.map Candidate.ipAddress :=
    List.filter_eq_self.mpr fun address _ => decide_eq_true List.not_mem_nil
  rw [arrivals, hAll]

theorem arrivals_stored (entry : Candidate) (rest fetched : List Candidate) :
    arrivals (entry :: rest) fetched = arrivals rest (others fetched entry.ipAddress) := by
  rw [arrivals, arrivals, map_ipAddress_others, List.filter_filter]
  congr 1
  refine List.filter_congr fun address _ => ?_
  rw [Bool.eq_iff_iff]
  simp [and_comm]

theorem arrivals_new (first : Candidate) (rest : List Candidate) :
    arrivals [] (first :: rest) =
      first.ipAddress :: arrivals [] (others rest first.ipAddress) := by
  rw [arrivals_nil, arrivals_nil, List.map_cons, List.eraseDups_cons, map_ipAddress_others]
  rfl

/-! ## Entry by entry -/

/-- What a merge comes to, with the number of entries that it adds. -/
inductive MergesTo : List Candidate → List Candidate → List Candidate → Nat → Prop
  /-- Nothing is stored, and nothing is fetched. -/
  | done : MergesTo [] [] [] 0
  /-- A stored entry takes what is fetched for its address. -/
  | stored (entry : Candidate) {rest fetched after : List Candidate} {added : Nat}
      (next : MergesTo rest (others fetched entry.ipAddress) after added) :
      MergesTo (entry :: rest) fetched (renewedBy fetched entry :: after) added
  /-- Nothing is stored any more, and what is fetched for one address is added. -/
  | arrived (first : Candidate) {rest after : List Candidate} {added : Nat}
      (next : MergesTo [] (others rest first.ipAddress) after added) :
      MergesTo [] (first :: rest) (renewedBy (first :: rest) first :: after) (added + 1)

theorem mergeInto_cons (fetched : List Candidate) :
    ∀ (entry : Candidate) (rest : List Candidate),
      mergeInto (entry :: rest) fetched =
        (renewedBy fetched entry :: (mergeInto rest (others fetched entry.ipAddress)).1,
          (mergeInto rest (others fetched entry.ipAddress)).2) := by
  induction fetched with
  | nil =>
      intro entry rest
      rfl
  | cons first more ih =>
      intro entry rest
      have hStep : mergeInto (entry :: rest) (first :: more) =
          ((mergeInto (upsert first (entry :: rest)).1 more).1,
            (upsert first (entry :: rest)).2 +
              (mergeInto (upsert first (entry :: rest)).1 more).2) := rfl
      rw [hStep]
      by_cases hSame : entry.ipAddress = first.ipAddress
      · rw [upsert_cons_same hSame, ih, others_cons_same hSame.symm, renewedBy, renewedBy,
          versions_cons_same hSame.symm, Nat.zero_add, List.foldl_cons,
          Candidate.replacedBy_ipAddress, ← hSame]
      · rw [upsert_cons_other hSame, ih, others_cons_other fun h => hSame h.symm, renewedBy,
          renewedBy, versions_cons_other fun h => hSame h.symm]
        rfl

/-- The first fetched entry of a new address is there from then on. -/
theorem mergeInto_nil_cons (first : Candidate) (rest : List Candidate) :
    mergeInto [] (first :: rest) =
      (renewedBy (first :: rest) first :: (mergeInto [] (others rest first.ipAddress)).1,
        (mergeInto [] (others rest first.ipAddress)).2 + 1) := by
  have hStep : mergeInto [] (first :: rest) =
      ((mergeInto [first] rest).1, 1 + (mergeInto [first] rest).2) := rfl
  have hFirst : renewedBy (first :: rest) first = renewedBy rest first := by
    rw [renewedBy, versions_cons_same rfl, List.foldl_cons, Candidate.replacedBy_self]
    rfl
  rw [hStep, mergeInto_cons, hFirst, Nat.add_comm]

theorem mergesTo : ∀ entries fetched : List Candidate,
    MergesTo entries fetched (mergeInto entries fetched).1 (mergeInto entries fetched).2
  | [], [] => .done
  | [], first :: rest => by
      have hShorter : (others rest first.ipAddress).length < rest.length + 1 :=
        Nat.lt_succ_of_le (List.length_filter_le _ _)
      rw [mergeInto_nil_cons]
      exact .arrived first (mergesTo [] (others rest first.ipAddress))
  | entry :: rest, fetched => by
      rw [mergeInto_cons]
      exact .stored entry (mergesTo rest (others fetched entry.ipAddress))
termination_by entries fetched => (entries.length, fetched.length)

/-! ## The new list -/

/-- How a list stands after a merge that counts `added` new entries. -/
structure Reconciled (before fetched after : List Candidate) (added : Nat) : Prop where
  /-- The stored entries stay in their places, and behind them comes one entry for
  each address that is new, in the order of their first appearance. -/
  addresses : after.map Candidate.ipAddress =
    before.map Candidate.ipAddress ++ arrivals before fetched
  /-- The new addresses are counted. -/
  added : added = (arrivals before fetched).length
  /-- The first entry of a fetched address is renewed. -/
  renewed : ∀ address ∈ fetched.map Candidate.ipAddress,
    firstAt after address = renewal (firstAt before address) (versions fetched address)
  /-- An entry whose address was not fetched is unchanged, and so is one that is
  not the first of its address. -/
  unchanged : ∀ (place : Nat) (entry : Candidate), before[place]? = some entry →
    (entry.ipAddress ∉ fetched.map Candidate.ipAddress ∨
      entry.ipAddress ∈ (before.take place).map Candidate.ipAddress) →
        after[place]? = some entry

namespace MergesTo

variable {before fetched after : List Candidate} {added : Nat}

theorem addresses_eq (hMerges : MergesTo before fetched after added) :
    after.map Candidate.ipAddress =
      before.map Candidate.ipAddress ++ arrivals before fetched := by
  induction hMerges with
  | done => rfl
  | stored entry _ ih =>
      rw [List.map_cons, ipAddress_renewedBy, ih, arrivals_stored]
      rfl
  | arrived first _ ih =>
      rw [List.map_cons, ipAddress_renewedBy, ih, arrivals_new]
      rfl

theorem added_eq (hMerges : MergesTo before fetched after added) :
    added = (arrivals before fetched).length := by
  induction hMerges with
  | done => rfl
  | stored entry _ ih => rw [arrivals_stored, ih]
  | arrived first _ ih => rw [arrivals_new, List.length_cons, ih]

theorem firstAt_eq (hMerges : MergesTo before fetched after added) :
    ∀ address ∈ fetched.map Candidate.ipAddress,
      firstAt after address = renewal (firstAt before address) (versions fetched address) := by
  induction hMerges with
  | done => exact fun address hMem => absurd hMem List.not_mem_nil
  | stored entry _ ih =>
      intro address hMem
      by_cases hSame : entry.ipAddress = address
      · rw [firstAt_cons_same ((ipAddress_renewedBy _ _).trans hSame), firstAt_cons_same hSame,
          renewal_stored _ (versions_ne_nil hMem), renewedBy, hSame]
      · rw [firstAt_cons_other fun h => hSame ((ipAddress_renewedBy _ _).symm.trans h),
          firstAt_cons_other hSame, ih address (mem_others hMem hSame), versions_others hSame]
  | arrived first _ ih =>
      intro address hMem
      by_cases hSame : first.ipAddress = address
      · rw [firstAt_cons_same ((ipAddress_renewedBy _ _).trans hSame), versions_cons_same hSame,
          firstAt_nil, renewal_new, renewedBy, hSame, versions_cons_same hSame]
      · have hRest := (List.mem_cons.mp hMem).resolve_left fun h => hSame h.symm
        rw [firstAt_cons_other fun h => hSame ((ipAddress_renewedBy _ _).symm.trans h),
          ih address (mem_others hRest hSame), versions_others hSame, versions_cons_other hSame]

theorem unchanged (hMerges : MergesTo before fetched after added) :
    ∀ (place : Nat) (entry : Candidate), before[place]? = some entry →
      (entry.ipAddress ∉ fetched.map Candidate.ipAddress ∨
        entry.ipAddress ∈ (before.take place).map Candidate.ipAddress) →
          after[place]? = some entry := by
  induction hMerges with
  | done => exact fun place entry hEntry _ => hEntry
  | arrived first _ _ =>
      intro place entry hEntry
      cases hEntry
  | stored first _ ih =>
      intro place entry hEntry hApart
      cases place with
      | zero =>
          obtain rfl : first = entry := Option.some.inj hEntry
          have hNotFetched := hApart.resolve_right List.not_mem_nil
          rw [renewedBy_of_not_fetched hNotFetched]
          rfl
      | succ place =>
          refine ih place entry hEntry ?_
          by_cases hSame : entry.ipAddress = first.ipAddress
          · exact .inl (hSame ▸ not_mem_others)
          · exact hApart.imp (fun hNot hMem => hNot (mem_of_mem_others hMem))
              fun hEarlier => (List.mem_cons.mp hEarlier).resolve_left hSame

/-- Merging the same entries once more adds none and changes nothing. -/
theorem again (hMerges : MergesTo before fetched after added) :
    mergeInto after fetched = (after, 0) := by
  induction hMerges with
  | done => rfl
  | stored entry _ ih =>
      rw [mergeInto_cons, renewedBy_renewedBy, ipAddress_renewedBy, ih]
  | arrived first _ ih =>
      rw [mergeInto_cons, renewedBy_renewedBy, ipAddress_renewedBy, others_cons_same rfl, ih]

theorem reconciled (hMerges : MergesTo before fetched after added) :
    Reconciled before fetched after added where
  addresses := hMerges.addresses_eq
  added := hMerges.added_eq
  renewed := hMerges.firstAt_eq
  unchanged := hMerges.unchanged

end MergesTo

/-- Merging, whatever is stored and whatever is fetched: the stored entries keep
their places, the new addresses are added behind them and counted, the first entry
of each fetched address is renewed and no other is touched.  The same entries,
merged once more, add nothing and change nothing. -/
theorem merge_reconciles (list : ServerList) (fetched : List Candidate) :
    Reconciled list.entries fetched (list.merge fetched).1.entries (list.merge fetched).2 ∧
      (list.merge fetched).1 = { list with entries := (list.merge fetched).1.entries } ∧
      (list.merge fetched).1.merge fetched = ((list.merge fetched).1, 0) := by
  have hMerges := mergesTo list.entries fetched
  refine ⟨hMerges.reconciled, rfl, ?_⟩
  rw [merge, merge, hMerges.again]

example :
    (merge { entries := [.ofAddress "a", .ofAddress "b", .ofAddress "a"] }
      [.ofAddress "c", .ofAddress "a", .ofAddress "d", .ofAddress "c"]).1.addresses =
        ["a", "b", "a", "c", "d"] := by
  decide +kernel

end ServerList

end RelayRace
