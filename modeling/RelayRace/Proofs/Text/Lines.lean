import Mathlib.Data.List.Infix

/-!
# The lines of a text

A line ends where a carriage return and a line feed follow one another; either
of them alone is a character like any other.  A text is cut at every such pair
(`lines`), so it has one line more than it has pairs, and the last line is empty
when the text ends in a pair.

What is needed of the cutting is that it undoes the putting together
(`lines_append`), and that every cut comes from a pair (`exists_cut`).
-/

namespace RelayRace.Text

/-- Carriage return and line feed. -/
def lineBreak : List Char := ['\r', '\n']

/-- The lines of a text, without their ends. -/
def lines : List Char → List (List Char)
  | '\r' :: '\n' :: rest => [] :: lines rest
  | [] => [[]]
  | c :: rest => (lines rest).modifyHead (c :: ·)

/-! ## Cutting -/

theorem lines_lineBreak (rest : List Char) : lines (lineBreak ++ rest) = [] :: lines rest := rfl

theorem lines_cons {c : Char} {rest : List Char} (hInside : ¬lineBreak <+: c :: rest) :
    lines (c :: rest) = (lines rest).modifyHead (c :: ·) := by
  rw [lines]
  rintro more rfl rfl
  exact hInside ⟨more, rfl⟩

theorem lines_ne_nil (text : List Char) : lines text ≠ [] := by
  fun_induction lines text with
  | case1 => exact List.cons_ne_nil _ _
  | case2 => exact List.cons_ne_nil _ _
  | case3 c rest _ ih => simpa using ih

/-- Putting texts together with a break between them puts their lines together. -/
theorem lines_append (text more : List Char) :
    lines (text ++ (lineBreak ++ more)) = lines text ++ lines more := by
  fun_induction lines text with
  | case1 rest ih => exact congrArg ([] :: ·) ih
  | case2 => rfl
  | case3 c rest hInside ih =>
      have hStill : ¬lineBreak <+: c :: (rest ++ (lineBreak ++ more)) := by
        rintro ⟨others, hOthers⟩
        cases rest with
        | nil => simp [lineBreak] at hOthers
        | cons d rest =>
            simp only [lineBreak, List.cons_append, List.nil_append, List.cons.injEq] at hOthers
            exact hInside rest hOthers.1.symm (by rw [← hOthers.2.1])
      obtain ⟨first, others, hLines⟩ := List.exists_cons_of_ne_nil (lines_ne_nil rest)
      rw [List.cons_append, lines_cons hStill, ih, hLines]
      rfl

/-- Wherever the lines are cut in two, the text is cut at a break. -/
theorem exists_cut {text : List Char} (before : List (List Char)) {after : List (List Char)}
    (hLines : lines text = before ++ after) (hBefore : before ≠ []) (hAfter : after ≠ []) :
    ∃ front back, text = front ++ (lineBreak ++ back) ∧ lines front = before ∧
      lines back = after := by
  fun_induction lines text generalizing before with
  | case1 rest ih =>
      obtain ⟨line, others, rfl⟩ := List.exists_cons_of_ne_nil hBefore
      obtain ⟨rfl, hRest⟩ := List.cons.inj hLines
      cases others with
      | nil => exact ⟨[], rest, rfl, rfl, hRest⟩
      | cons next others =>
          obtain ⟨front, back, rfl, hFront, hBack⟩ := ih _ hRest (List.cons_ne_nil _ _)
          exact ⟨lineBreak ++ front, back, rfl, by rw [lines_lineBreak, hFront], hBack⟩
  | case2 =>
      obtain ⟨line, others, rfl⟩ := List.exists_cons_of_ne_nil hBefore
      obtain ⟨-, hNone⟩ := List.cons.inj hLines
      exact absurd (List.append_eq_nil_iff.mp hNone.symm).2 hAfter
  | case3 c rest hInside ih =>
      obtain ⟨line, others, rfl⟩ := List.exists_cons_of_ne_nil hBefore
      obtain ⟨first, more, hRest⟩ := List.exists_cons_of_ne_nil (lines_ne_nil rest)
      rw [hRest] at hLines
      obtain ⟨rfl, hMore⟩ := List.cons.inj hLines
      obtain ⟨front, back, rfl, hFront, hBack⟩ :=
        ih (first :: others) (by rw [hRest, hMore]; rfl) (List.cons_ne_nil _ _)
      refine ⟨c :: front, back, rfl, ?_, hBack⟩
      rw [lines_cons, hFront]
      · rfl
      · rintro ⟨tail, hTail⟩
        obtain ⟨rfl, hFeed⟩ := List.cons.inj hTail
        exact hInside (tail ++ (lineBreak ++ back)) rfl (by rw [← hFeed]; rfl)

/-! ## Texts of one line -/

theorem eq_of_lines {text line : List Char} (hLines : lines text = [line]) : text = line := by
  fun_induction lines text generalizing line with
  | case1 rest =>
      obtain ⟨-, hNone⟩ := List.cons.inj hLines
      exact absurd hNone (lines_ne_nil rest)
  | case2 => exact (List.cons.inj hLines).1
  | case3 c rest _ ih =>
      obtain ⟨first, more, hRest⟩ := List.exists_cons_of_ne_nil (lines_ne_nil rest)
      rw [hRest] at hLines
      obtain ⟨rfl, rfl⟩ := List.cons.inj hLines
      rw [ih hRest]

/-- A text is one line if and only if there is no break in it. -/
theorem lines_eq_singleton_iff (text : List Char) :
    lines text = [text] ↔ ¬lineBreak <:+: text := by
  constructor
  · rintro hOne ⟨front, back, rfl⟩
    rw [List.append_assoc, lines_append] at hOne
    have hFront := List.length_pos_of_ne_nil (lines_ne_nil front)
    have hBack := List.length_pos_of_ne_nil (lines_ne_nil back)
    have hLength := congrArg List.length hOne
    rw [List.length_append, List.length_singleton] at hLength
    omega
  · intro hUnbroken
    obtain ⟨first, more, hLines⟩ := List.exists_cons_of_ne_nil (lines_ne_nil text)
    cases more with
    | nil => rw [hLines, eq_of_lines hLines]
    | cons next more =>
        obtain ⟨front, back, rfl, -, -⟩ := exists_cut [first] hLines
          (List.cons_ne_nil _ _) (List.cons_ne_nil _ _)
        exact absurd ⟨front, back, List.append_assoc ..⟩ hUnbroken

/-- There is no break in a line. -/
theorem not_lineBreak_of_mem_lines {text line : List Char} (hLine : line ∈ lines text) :
    ¬lineBreak <:+: line := by
  obtain ⟨before, after, hLines⟩ := List.append_of_mem hLine
  -- The line is all of the text but what stands before and after it.
  have hOne : ∃ rest, lines rest = line :: after := by
    cases before with
    | nil => exact ⟨text, hLines⟩
    | cons first before =>
        obtain ⟨-, back, -, -, hBack⟩ := exists_cut _ hLines (List.cons_ne_nil _ _)
          (List.cons_ne_nil _ _)
        exact ⟨back, hBack⟩
  obtain ⟨rest, hRest⟩ := hOne
  have hAlone : lines line = [line] := by
    cases after with
    | nil => rw [eq_of_lines hRest] at hRest; exact hRest
    | cons next after =>
        obtain ⟨front, -, -, hFront, -⟩ := exists_cut [line] hRest
          (List.cons_ne_nil _ _) (List.cons_ne_nil _ _)
        rw [eq_of_lines hFront] at hFront
        exact hFront
  exact (lines_eq_singleton_iff line).mp hAlone

/-! ## Blank lines -/

/-- Two breaks in a row: the end of a line and a blank line. -/
def blankLine : List Char := lineBreak ++ lineBreak

/-- A text that neither begins nor ends with a break has a blank line only where
two breaks follow one another. -/
theorem blankLine_of_mem_lines {text : List Char} (hBlank : [] ∈ lines text) (hText : text ≠ [])
    (hBegins : ¬lineBreak <+: text) (hEnds : ¬lineBreak <:+ text) : blankLine <:+: text := by
  obtain ⟨before, after, hLines⟩ := List.append_of_mem hBlank
  cases before with
  | nil =>
      cases after with
      | nil => exact absurd (eq_of_lines hLines) hText
      | cons next after =>
          obtain ⟨front, back, rfl, hFront, -⟩ := exists_cut [[]] hLines
            (List.cons_ne_nil _ _) (List.cons_ne_nil _ _)
          rw [eq_of_lines hFront] at hBegins
          exact absurd ⟨back, rfl⟩ hBegins
  | cons first before =>
      obtain ⟨front, back, rfl, -, hBack⟩ := exists_cut _ hLines (List.cons_ne_nil _ _)
        (List.cons_ne_nil _ _)
      cases after with
      | nil =>
          rw [eq_of_lines hBack] at hEnds
          exact absurd ⟨front, by rw [List.append_nil]⟩ hEnds
      | cons next after =>
          obtain ⟨middle, rest, rfl, hMiddle, -⟩ := exists_cut [[]] hBack
            (List.cons_ne_nil _ _) (List.cons_ne_nil _ _)
          rw [eq_of_lines hMiddle]
          exact ⟨front, rest, by simp [blankLine]⟩

theorem not_lineBreak_suffix {front back : List Char} (hBack : back ≠ []) (hFeed : '\n' ∉ back) :
    ¬lineBreak <:+ front ++ back := by
  rintro ⟨rest, hRest⟩
  have hLast : back.getLast? = some '\n' := by
    rw [← List.getLast?_append_of_ne_nil front hBack, ← hRest]
    simp [lineBreak]
  exact hFeed (List.mem_of_getLast? hLast)

/-- If none but the last two lines of a text are empty, there is a blank line at
its end and nowhere else. -/
theorem eq_nil_of_blankLine {text front back : List Char} {written : List (List Char)}
    (hLines : lines text = written ++ [[], []]) (hWritten : [] ∉ written)
    (hText : text = front ++ (blankLine ++ back)) : back = [] := by
  have hCut : lines front ++ [] :: lines back = written ++ [[], []] := by
    rw [← hLines, hText, blankLine, List.append_assoc, lines_append, lines_lineBreak]
  rcases List.append_eq_append_iff.mp hCut with ⟨more, rfl, hBack⟩ | ⟨more, hFront, hBack⟩
  · cases more with
    | nil => exact (eq_of_lines (List.cons.inj hBack).2)
    | cons line more =>
        obtain ⟨rfl, -⟩ := List.cons.inj hBack
        exact absurd (List.mem_append_right _ List.mem_cons_self) hWritten
  · cases more with
    | nil => exact (eq_of_lines (List.cons.inj hBack).2.symm)
    | cons line more =>
        -- The blank line would be the last one, with no line behind it.
        obtain ⟨-, hLast⟩ := List.cons.inj hBack
        cases more with
        | nil => exact absurd (List.cons.inj hLast).2.symm (lines_ne_nil back)
        | cons next more => simp at hLast

/-! ## Marks within a text -/

/-- A mark whose first character does not occur in front of a text is in the text
or nowhere. -/
theorem infix_append_of_first_not_mem {c : Char} {mark front text : List Char}
    (hFront : c ∉ front) : c :: mark <:+: front ++ text ↔ c :: mark <:+: text := by
  refine ⟨?_, List.infix_append_of_infix_right⟩
  induction front with
  | nil => exact id
  | cons d front ih =>
      rw [List.mem_cons, not_or] at hFront
      rw [List.cons_append, List.infix_cons_iff]
      rintro (⟨rest, hRest⟩ | hInside)
      · exact absurd (List.cons.inj hRest).1 hFront.1
      · exact ih hFront.2 hInside

/-- A mark whose last character does not occur behind a text is in the text or
nowhere. -/
theorem infix_append_of_last_not_mem {c : Char} {mark text back : List Char} (hBack : c ∉ back) :
    mark ++ [c] <:+: text ++ back ↔ mark ++ [c] <:+: text := by
  have hMirrored : c :: mark.reverse <:+: back.reverse ++ text.reverse ↔
      c :: mark.reverse <:+: text.reverse :=
    infix_append_of_first_not_mem (by simpa using hBack)
  rw [← List.reverse_infix]
  have hText : (mark ++ [c]).reverse <:+: text.reverse ↔ mark ++ [c] <:+: text :=
    List.reverse_infix
  rw [← hText]
  simpa using hMirrored

/-- A mark that begins with a carriage return and ends with a line feed. -/
theorem infix_between_iff {mark front text back : List Char} (hFront : '\r' ∉ front)
    (hBack : '\n' ∉ back) :
    '\r' :: mark ++ ['\n'] <:+: front ++ text ++ back ↔ '\r' :: mark ++ ['\n'] <:+: text := by
  rw [infix_append_of_last_not_mem hBack]
  exact infix_append_of_first_not_mem hFront

end RelayRace.Text
