import Mathlib.Data.List.Lattice

/-!
# The first match in a list

A worker is found by its index, and an entry of the server list by its address:
both are the first element of a list that satisfies a test.  `find?` yields that
element and `eraseP` the list without it, and nothing is lost between the two.

Where elements can be compared, taking out the first match is taking out that
element (`erase`), taking out several is `diff`, and `eraseDups` keeps the first
of each.
-/

namespace RelayRace

section

variable {α : Type} {test : α → Bool}

/-- The first match and the list without it are the list, rearranged. -/
theorem perm_of_find? {l : List α} {x : α} (hFind : l.find? test = some x) :
    (x :: l.eraseP test).Perm l := by
  induction l with
  | nil => cases hFind
  | cons y rest ih =>
      by_cases hTest : test y = true
      · rw [List.find?_cons_of_pos hTest, Option.some.injEq] at hFind
        rw [List.eraseP_cons_of_pos hTest, hFind]
      · rw [List.find?_cons_of_neg hTest] at hFind
        rw [List.eraseP_cons_of_neg hTest]
        exact (List.Perm.swap y x _).trans ((ih hFind).cons y)

/-- Taking out the first match of one test does not move the first match of
another that never holds together with it. -/
theorem find?_eraseP_of_apart {other : α → Bool}
    (hApart : ∀ x, test x = true → other x = false) (l : List α) :
    (l.eraseP test).find? other = l.find? other := by
  induction l with
  | nil => rfl
  | cons x rest ih =>
      by_cases hTest : test x = true
      · rw [List.eraseP_cons_of_pos hTest, List.find?_cons_of_neg (by simp [hApart x hTest])]
      · rw [List.eraseP_cons_of_neg hTest, List.find?_cons, List.find?_cons, ih]

end

section

variable {α : Type} [BEq α] [LawfulBEq α]

/-- Taking out the first match is taking out the first element equal to it. -/
theorem erase_of_find? {test : α → Bool} {l : List α} {x : α} (hFind : l.find? test = some x) :
    l.erase x = l.eraseP test := by
  induction l with
  | nil => cases hFind
  | cons y rest ih =>
      by_cases hTest : test y = true
      · rw [List.find?_cons_of_pos hTest, Option.some.injEq] at hFind
        rw [hFind, List.erase_cons_head, ← hFind, List.eraseP_cons_of_pos hTest]
      · have hNe : y ≠ x := fun hEq => hTest (hEq ▸ List.find?_some hFind)
        rw [List.find?_cons_of_neg hTest] at hFind
        rw [List.eraseP_cons_of_neg hTest, List.erase_cons_tail (by simpa using hNe), ih hFind]

/-- The elements of the first part are the ones that are taken out. -/
theorem append_diff_self (front rest : List α) : (front ++ rest).diff front = rest := by
  induction front with
  | nil => rfl
  | cons x front ih => rw [List.cons_append, List.diff_cons, List.erase_cons_head, ih]

theorem nodup_eraseDups : ∀ l : List α, l.eraseDups.Nodup
  | [] => List.nodup_nil
  | x :: rest => by
      have hShorter : (rest.filter fun y => !y == x).length < rest.length + 1 :=
        Nat.lt_succ_of_le (List.length_filter_le _ _)
      rw [List.eraseDups_cons, List.nodup_cons, List.mem_eraseDups]
      exact ⟨by simp, nodup_eraseDups _⟩
termination_by l => l.length

/-- Repetitions can be left out before or after a selection. -/
theorem eraseDups_filter (test : α → Bool) :
    ∀ l : List α, (l.filter test).eraseDups = l.eraseDups.filter test
  | [] => rfl
  | x :: rest => by
      have hShorter : (rest.filter fun y => !y == x).length < rest.length + 1 :=
        Nat.lt_succ_of_le (List.length_filter_le _ _)
      have ih := eraseDups_filter test (rest.filter fun y => !y == x)
      rw [List.filter_filter] at ih
      by_cases hTest : test x = true
      · rw [List.filter_cons_of_pos hTest, List.eraseDups_cons, List.eraseDups_cons,
          List.filter_cons_of_pos hTest, ← ih, List.filter_filter]
        simp only [Bool.and_comm]
      · rw [List.filter_cons_of_neg hTest, List.eraseDups_cons, List.filter_cons_of_neg hTest, ← ih]
        congr 1
        refine List.filter_congr fun y _ => ?_
        by_cases hSame : y = x
        · simp [hSame, hTest]
        · simp [hSame]
termination_by l => l.length

end

end RelayRace
