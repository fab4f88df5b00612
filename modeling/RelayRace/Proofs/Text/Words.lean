import Mathlib.Data.List.TakeDrop
import RelayRace.Text.Blank

/-!
# The words of a line

The words of a line are the pieces between its blanks that are not empty, however
many blanks there are and wherever they stand.  All that is said about them comes
from one equation: at a blank, the words fall apart (`words_append_blank`).  Taking
the words of a line one by one, as `nextWord` does, gives just these.
-/

namespace RelayRace.Text

/-- The words of a line. -/
def words (line : List Char) : List (List Char) :=
  (line.splitOnP isBlank).filter fun word => !word.isEmpty

theorem words_append_blank {c : Char} (hBlank : isBlank c = true) (front back : List Char) :
    words (front ++ c :: back) = words front ++ words back := by
  rw [words, List.splitOnP_append_cons front back hBlank, List.filter_append]
  rfl

theorem words_nil : words [] = [] := rfl

theorem words_blank {c : Char} (hBlank : isBlank c = true) (line : List Char) :
    words (c :: line) = words line :=
  words_append_blank hBlank [] line

/-- Blanks in front are in no word. -/
theorem words_dropWhile (line : List Char) : words (line.dropWhile isBlank) = words line := by
  induction line with
  | nil => rfl
  | cons c line ih =>
      by_cases hBlank : isBlank c = true
      · rw [List.dropWhile_cons_of_pos hBlank, ih, words_blank hBlank]
      · rw [List.dropWhile_cons_of_neg hBlank]

/-- Letters without a blank are one word. -/
theorem words_singleton {word : List Char} (hSome : word ≠ [])
    (hLetters : ∀ c ∈ word, isBlank c = false) : words word = [word] := by
  rw [words, List.splitOnP_eq_singleton hLetters]
  simp [hSome]

/-- Letters that a blank or nothing follows are the first word. -/
theorem words_word {word rest : List Char} (hSome : word ≠ [])
    (hLetters : ∀ c ∈ word, isBlank c = false) (hEnds : ∀ c ∈ rest.head?, isBlank c = true) :
    words (word ++ rest) = word :: words rest := by
  cases rest with
  | nil => rw [List.append_nil, words_singleton hSome hLetters, words_nil]
  | cons c rest =>
      have hBlank : isBlank c = true := hEnds c rfl
      rw [words_append_blank hBlank, words_singleton hSome hLetters, words_blank hBlank]
      rfl

/-- Taking a word off a line takes the first of its words, or there is none. -/
theorem words_eq_nextWord (line : List Char) :
    words line =
      if (nextWord line).1 = [] then [] else (nextWord line).1 :: words (nextWord line).2 := by
  rw [← words_dropWhile, nextWord, List.span_eq_takeWhile_dropWhile]
  generalize hRest : line.dropWhile isBlank = rest
  cases rest with
  | nil => rfl
  | cons c more =>
      have hLetter : isBlank c = false := by
        have hHead := List.head?_dropWhile_not isBlank line
        rwa [hRest] at hHead
      have hSome : (c :: more).takeWhile (fun c => !isBlank c) ≠ [] := by
        simp [hLetter]
      have hLetters : ∀ d ∈ (c :: more).takeWhile (fun c => !isBlank c), isBlank d = false := by
        intro d hMem
        simpa using List.all_eq_true.mp List.all_takeWhile d hMem
      have hEnds : ∀ d ∈ ((c :: more).dropWhile (fun c => !isBlank c)).head?, isBlank d = true := by
        intro d hMem
        have hHead := List.head?_dropWhile_not (fun c => !isBlank c) (c :: more)
        rw [Option.mem_def.mp hMem] at hHead
        simpa using hHead
      rw [if_neg hSome, ← words_word hSome hLetters hEnds, List.takeWhile_append_dropWhile]

end RelayRace.Text
