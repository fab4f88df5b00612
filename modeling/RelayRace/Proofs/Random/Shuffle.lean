import RelayRace.Random.Shuffle

/-!
# What a shuffle depends on

A shuffle moves entries and looks at none of them: which entry ends where, and
how many draws are made, depends on the generator and on the number of entries
alone.  So shuffling commutes with every function that is applied to each entry,
and two lists of one length leave the generator in the same state.
-/

namespace RelayRace

namespace Generator

section

variable {α β : Type}

theorem map_swapIfInBounds (f : α → β) (entries : Array α) (i j : Nat) :
    (entries.swapIfInBounds i j).map f = (entries.map f).swapIfInBounds i j := by
  refine Array.ext (by simp) fun k _ _ => ?_
  simp only [Array.getElem_map, Array.getElem_swapIfInBounds, Array.size_map]
  split
  · rfl
  · split <;> rfl

theorem perm_swapIfInBounds (entries : Array α) (i j : Nat) :
    (entries.swapIfInBounds i j).Perm entries := by
  unfold Array.swapIfInBounds
  split
  · split
    · exact Array.swap_perm _ _
    · exact .refl _
  · exact .refl _

/-- Swapping down commutes with a function on the entries, and makes the same
draws for it. -/
theorem shuffleDown_map (f : α → β) :
    ∀ (count : Nat) (entries : Array α) (g : Generator),
      shuffleDown count (entries.map f) g =
        ((shuffleDown count entries g).1.map f, (shuffleDown count entries g).2)
  | 0, _, _ => rfl
  | count + 1, entries, g => by
      simp only [shuffleDown]
      rw [← map_swapIfInBounds]
      exact shuffleDown_map f count _ _

theorem perm_shuffleDown :
    ∀ (count : Nat) (entries : Array α) (g : Generator),
      (shuffleDown count entries g).1.Perm entries
  | 0, _, _ => .refl _
  | count + 1, entries, g => by
      simp only [shuffleDown]
      exact (perm_shuffleDown count _ _).trans (perm_swapIfInBounds entries _ _)

/-- A shuffle does not look at what it moves. -/
theorem shuffle_map (f : α → β) (g : Generator) (entries : List α) :
    g.shuffle (entries.map f) = ((g.shuffle entries).1.map f, (g.shuffle entries).2) := by
  have hDown := shuffleDown_map f (entries.length - 1) entries.toArray g
  simp only [shuffle, List.length_map]
  rw [← List.map_toArray, hDown]
  simp

/-- A shuffle loses and duplicates nothing. -/
theorem perm_shuffle (g : Generator) (entries : List α) :
    (g.shuffle entries).1.Perm entries :=
  (perm_shuffleDown _ _ g).toList

theorem perm_shuffleTail (g : Generator) (entries : List α) :
    (g.shuffleTail entries).1.Perm entries := by
  cases entries with
  | nil => exact .refl _
  | cons first rest => exact (g.perm_shuffle rest).cons first

end

end Generator

end RelayRace
