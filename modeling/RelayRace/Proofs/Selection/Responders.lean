import Mathlib.Data.List.Nodup
import RelayRace.Proofs.FirstMatch
import RelayRace.Proofs.Random.Shuffle
import RelayRace.Selection.Responders

/-!
# What the order of the responders depends on

The responders of a round are sorted by their dispatch index, shuffled, and the
entry that stood first is preferred.  Sorting forgets in which order they
arrived, and neither the shuffle nor the preference looks at anything but the
candidate.  So of two rounds whose responders are the same, whatever their order
and their response times, the orders of preference are the same
(`keys_orderResponders`).
-/

namespace RelayRace

/-! ## The preferred one -/

section

variable {α β : Type}

theorem perm_firstToFront (test : α → Bool) (entries : List α) :
    (firstToFront test entries).Perm entries := by
  unfold firstToFront
  split
  · rename_i entry hFind
    exact perm_of_find? hFind
  · exact .refl _

theorem firstToFront_map (test : β → Bool) (f : α → β) (entries : List α) :
    firstToFront test (entries.map f) = (firstToFront (test ∘ f) entries).map f := by
  simp only [firstToFront, List.find?_map, List.eraseP_map]
  cases entries.find? (test ∘ f) <;> rfl

/-- When some entry passes the test, the one in front does. -/
theorem head_firstToFront {test : α → Bool} {entries : List α}
    (hSome : ∃ entry ∈ entries, test entry = true) :
    ∃ entry rest, firstToFront test entries = entry :: rest ∧ test entry = true := by
  obtain ⟨entry, hFind⟩ := Option.isSome_iff_exists.mp (List.find?_isSome.mpr hSome)
  refine ⟨entry, entries.eraseP test, ?_, List.find?_some hFind⟩
  rw [firstToFront, hFind]

end

theorem perm_preferFirst (first : Option Candidate) (responders : List Outcome) :
    (preferFirst first responders).Perm responders := by
  cases first with
  | none => exact .refl _
  | some server => exact perm_firstToFront _ _

/-- Putting the responders in order neither loses nor adds one. -/
theorem perm_orderResponders (g : Generator) (first : Option Candidate)
    (responders : List Outcome) :
    (orderResponders g first responders).1.Perm responders := by
  have hShuffled := g.perm_shuffle (responders.mergeSort dispatchedBefore)
  exact ((perm_preferFirst first _).trans hShuffled).trans (List.mergeSort_perm _ _)

/-- When the server that stood first responded, an outcome of it leads. -/
theorem head_orderResponders {g : Generator} {server : Candidate} {responders : List Outcome}
    {o : Outcome} (hMem : o ∈ responders) (hServer : o.isOf server = true) :
    ∃ best losers,
      (orderResponders g (some server) responders).1 = best :: losers ∧
        best.isOf server = true := by
  refine head_firstToFront ⟨o, ?_, hServer⟩
  have hShuffled := g.perm_shuffle (responders.mergeSort dispatchedBefore)
  exact (hShuffled.trans (List.mergeSort_perm _ _)).mem_iff.mpr hMem

/-! ## Forgetting the order of arrival -/

/-- What the order of preference goes by. -/
def Outcome.key (o : Outcome) : Nat × Candidate := (o.index, o.candidate)

/-- Sorting by the dispatch index, told of the keys. -/
def keyBefore (a b : Nat × Candidate) : Bool := a.1 ≤ b.1

theorem map_key_mergeSort (responders : List Outcome) :
    (responders.mergeSort dispatchedBefore).map Outcome.key =
      (responders.map Outcome.key).mergeSort keyBefore :=
  List.map_mergeSort fun _ _ _ _ => rfl

theorem pairwise_mergeSort_keys (keys : List (Nat × Candidate)) :
    (keys.mergeSort keyBefore).Pairwise fun a b => keyBefore a b = true := by
  refine List.pairwise_mergeSort (fun a b c hAB hBC => ?_) (fun a b => ?_) keys
  · simp only [keyBefore, decide_eq_true_eq] at hAB hBC ⊢
    omega
  · simp only [keyBefore, Bool.or_eq_true, decide_eq_true_eq]
    omega

/-- Keys with different indices are sorted in one way only. -/
theorem mergeSort_keys_eq {left right : List (Nat × Candidate)} (hPerm : left.Perm right)
    (hNodup : (left.map Prod.fst).Nodup) :
    left.mergeSort keyBefore = right.mergeSort keyBefore := by
  have hSorted := (List.mergeSort_perm left keyBefore).trans
    (hPerm.trans (List.mergeSort_perm right keyBefore).symm)
  refine List.Perm.eq_of_pairwise (fun a b hA hB hAB hBA => ?_)
    (pairwise_mergeSort_keys left) (pairwise_mergeSort_keys right) hSorted
  have hLeftA : a ∈ left := List.mem_mergeSort.mp hA
  have hLeftB : b ∈ left := hPerm.mem_iff.mpr (List.mem_mergeSort.mp hB)
  have hIndex : a.1 = b.1 := by
    simp only [keyBefore, decide_eq_true_eq] at hAB hBA
    omega
  exact List.inj_on_of_nodup_map hNodup hLeftA hLeftB hIndex

theorem map_key_preferFirst (first : Option Candidate) (responders : List Outcome) :
    (preferFirst first responders).map Outcome.key =
      match first with
      | some server =>
          firstToFront (fun key => key.2.sameServer server) (responders.map Outcome.key)
      | none => responders.map Outcome.key := by
  cases first with
  | none => rfl
  | some server =>
      show (firstToFront (Outcome.isOf server) responders).map Outcome.key =
        firstToFront (fun key => key.2.sameServer server) (responders.map Outcome.key)
      rw [firstToFront_map]
      rfl

/-- The order of preference, and the generator after it, follow from the keys of
the responders, whatever the order of their arrival. -/
theorem keys_orderResponders (g : Generator) (first : Option Candidate)
    {left right : List Outcome} (hPerm : (left.map Outcome.key).Perm (right.map Outcome.key))
    (hNodup : (left.map Outcome.index).Nodup) :
    (orderResponders g first left).1.map Outcome.key =
        (orderResponders g first right).1.map Outcome.key ∧
      (orderResponders g first left).2 = (orderResponders g first right).2 := by
  have hSorted : (left.mergeSort dispatchedBefore).map Outcome.key =
      (right.mergeSort dispatchedBefore).map Outcome.key := by
    rw [map_key_mergeSort, map_key_mergeSort]
    refine mergeSort_keys_eq hPerm ?_
    rw [List.map_map]
    exact hNodup
  have hLeft := Generator.shuffle_map Outcome.key g (left.mergeSort dispatchedBefore)
  have hRight := Generator.shuffle_map Outcome.key g (right.mergeSort dispatchedBefore)
  have hShuffled := hLeft.symm.trans ((congrArg g.shuffle hSorted).trans hRight)
  obtain ⟨hKeys, hGenerator⟩ := Prod.mk.inj hShuffled
  have hOrder : ∀ responders : List Outcome, (orderResponders g first responders).1 =
      preferFirst first (g.shuffle (responders.mergeSort dispatchedBefore)).1 := fun _ => rfl
  refine ⟨?_, hGenerator⟩
  rw [hOrder, hOrder, map_key_preferFirst, map_key_preferFirst, hKeys]

end RelayRace
