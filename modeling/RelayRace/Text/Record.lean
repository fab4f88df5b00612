import RelayRace.Text.Diagnostic

/-!
# Records in diagnostics

A value that is shown in a diagnostic is first turned into a `Shown`: texts,
numbers, optional values and records of named fields. What is not in the
`Shown` cannot appear in any rendering of it, which is how a secret is kept out
of both the one-line and the indented form.
-/

namespace RelayRace.Text

/-- A value as a diagnostic shows it. -/
inductive Shown where
  | text (value : String)
  | number (value : Nat)
  | missing
  | present (value : Shown)
  | record (name : String) (fields : List (String × Shown))

namespace Shown

mutual

/-- The value on one line. -/
def inline : Shown → String
  | .text value => diagnostic value
  | .number value => decimal value
  | .missing => "None"
  | .present value => "Some(" ++ value.inline ++ ")"
  | .record name fields => name ++ " \x7b " ++ inlineFields fields ++ " \x7d"

/-- The fields of a record on one line, separated by commas. -/
def inlineFields : List (String × Shown) → String
  | [] => ""
  | [(name, value)] => name ++ ": " ++ value.inline
  | (name, value) :: field :: rest =>
      name ++ ": " ++ value.inline ++ ", " ++ inlineFields (field :: rest)

end

/-- The blanks at the beginning of a line. -/
def margin (depth : Nat) : String := String.ofList (List.replicate (4 * depth) ' ')

mutual

/-- The value over several lines. The first line begins where the value stands,
and every level below it is set in by four more blanks. -/
def indented (depth : Nat) : Shown → String
  | .text value => diagnostic value
  | .number value => decimal value
  | .missing => "None"
  | .present value =>
      "Some(\n" ++ margin (depth + 1) ++ value.indented (depth + 1) ++ ",\n" ++
        margin depth ++ ")"
  | .record name fields =>
      name ++ " \x7b\n" ++ indentedFields (depth + 1) fields ++ margin depth ++ "\x7d"

/-- The fields of a record, one to a line, with a comma after each. -/
def indentedFields (depth : Nat) : List (String × Shown) → String
  | [] => ""
  | (name, value) :: rest =>
      margin depth ++ name ++ ": " ++ value.indented depth ++ ",\n" ++ indentedFields depth rest

end

end Shown

end RelayRace.Text
