import RelayRace.Proofs.Json.Entry

/-!
# JSON texts

A JSON text is a value with blanks wherever they are permitted.  The values of this
module keep all that a writer may choose: the blanks (`Gap`), how the characters of
a text are spelled (`Glyph`), and the digits of a number (`Numeral`).  So a value
determines its text, and no JSON text is left out.

What a text says is told without a reader.  A surrogate that stands alone is no
character, so a text with such a code unit says nothing (`decode`).
-/

namespace RelayRace.Json

open Text

/-! ## Blanks -/

/-- Blanks between two parts. -/
structure Gap where
  chars : List Char := []
  blank : chars.all isSpace = true := by decide

@[simp] theorem skipSpace_gap (gap : Gap) (cs : List Char) :
    skipSpace (gap.chars ++ cs) = skipSpace cs :=
  List.dropWhile_append_of_pos (List.all_eq_true.mp gap.blank)

/-! ## Quoted texts -/

/-- A hexadecimal digit of either case. -/
structure HexDigit where
  value : Fin 16
  capital : Bool := false

def HexDigit.char (digit : HexDigit) : Char :=
  if digit.capital then (hexDigit digit.value).toUpper else hexDigit digit.value

theorem hexValue?_char (digit : HexDigit) : hexValue? digit.char = some digit.value := by
  obtain ⟨value, capital⟩ := digit
  revert value capital
  decide

/-- A code unit of 16 bits, its first digit first. -/
structure CodeUnit where
  first : HexDigit
  second : HexDigit
  third : HexDigit
  fourth : HexDigit

namespace CodeUnit

def value (u : CodeUnit) : Nat :=
  ((u.first.value * 16 + u.second.value) * 16 + u.third.value) * 16 + u.fourth.value

def text (u : CodeUnit) : List Char :=
  [u.first.char, u.second.char, u.third.char, u.fourth.char]

/-- Whether the unit is the first half of a surrogate pair. -/
def isHigh (u : CodeUnit) : Bool := 0xd800 ≤ u.value && u.value ≤ 0xdbff

/-- Whether the unit is the second half of a surrogate pair. -/
def isLow (u : CodeUnit) : Bool := 0xdc00 ≤ u.value && u.value ≤ 0xdfff

/-- The character of a surrogate pair. -/
def paired (high low : CodeUnit) : Char :=
  Char.ofNat (0x10000 + (high.value - 0xd800) * 0x400 + (low.value - 0xdc00))

end CodeUnit

/-- The characters that have an escape of one letter. -/
inductive Escape where
  | quote
  | backslash
  | slash
  | backspace
  | formFeed
  | lineFeed
  | carriageReturn
  | tab

/-- The letter behind the backslash. -/
def Escape.letter : Escape → Char
  | .quote => '"'
  | .backslash => '\\'
  | .slash => '/'
  | .backspace => 'b'
  | .formFeed => 'f'
  | .lineFeed => 'n'
  | .carriageReturn => 'r'
  | .tab => 't'

/-- The character that is meant. -/
def Escape.char : Escape → Char
  | .quote => '"'
  | .backslash => '\\'
  | .slash => '/'
  | .backspace => '\x08'
  | .formFeed => '\x0c'
  | .lineFeed => '\n'
  | .carriageReturn => '\r'
  | .tab => '\t'

/-- One character of a quoted text as it is spelled. -/
inductive Glyph where
  | plain (c : Char) (isPlain : 0x20 ≤ c.toNat ∧ c ≠ '"' ∧ c ≠ '\\')
  | short (escape : Escape)
  | unit (u : CodeUnit)

def Glyph.text : Glyph → List Char
  | .plain c _ => [c]
  | .short escape => ['\\', escape.letter]
  | .unit u => '\\' :: 'u' :: u.text

/-- The characters that are spelled; none if a surrogate stands alone. -/
def decode : List Glyph → Option (List Char)
  | [] => some []
  | .plain c _ :: rest => (decode rest).map (c :: ·)
  | .short escape :: rest => (decode rest).map (escape.char :: ·)
  | .unit u :: rest =>
      if u.isHigh then
        match rest with
        | .unit low :: rest => if low.isLow then (decode rest).map (u.paired low :: ·) else none
        | _ => none
      else if u.isLow then none
      else (decode rest).map (Char.ofNat u.value :: ·)

theorem decode_single {u : CodeUnit} (hHigh : ¬ u.isHigh = true) (rest : List Glyph) :
    decode (.unit u :: rest) =
      if u.isLow then none else (decode rest).map (Char.ofNat u.value :: ·) := by
  rw [decode.eq_def]
  exact if_neg hHigh

/-- The first half of a pair says nothing where the second half does not follow. -/
theorem decode_lone {u : CodeUnit} (hHigh : u.isHigh = true) {rest : List Glyph}
    (hLone : ∀ low more, rest = .unit low :: more → False) : decode (.unit u :: rest) = none := by
  rw [decode.eq_def]
  simp only [hHigh, if_true]

/-- The text that is spelled. -/
def spelled (glyphs : List Glyph) : Option String := (decode glyphs).map String.ofList

/-- A text in quotes. -/
def quotedText (glyphs : List Glyph) : List Char := '"' :: glyphs.flatMap Glyph.text ++ ['"']

/-! ## Numbers -/

/-- At least one decimal digit. -/
structure Digits where
  first : Fin 10
  rest : List (Fin 10) := []

namespace Digits

def toList (digits : Digits) : List (Fin 10) := digits.first :: digits.rest

end Digits

/-- The characters of some digits. -/
def digitText (digits : List (Fin 10)) : List Char :=
  digits.map fun digit => Nat.digitChar digit.val

/-- The number that some digits make of one that stands before them. -/
def digitValue (before : Nat) (digits : List (Fin 10)) : Nat :=
  digits.foldl (fun value digit => value * 10 + digit.val) before

/-- The exponent of a number. -/
structure Exponent where
  capital : Bool := false
  /-- Whether the sign is a minus, if there is a sign. -/
  sign : Option Bool := none
  digits : Digits

/-- The sign of an exponent, if there is one. -/
def signText : Option Bool → List Char
  | none => []
  | some false => ['+']
  | some true => ['-']

/-- The exponent, if there is one. -/
def exponentText : Option Exponent → List Char
  | none => []
  | some e => (if e.capital then 'E' else 'e') :: (signText e.sign ++ digitText e.digits.toList)

/-- The fraction, if there is one. -/
def fractionText : Option Digits → List Char
  | none => []
  | some digits => '.' :: digitText digits.toList

/-- A number.  Before the point, a zero in front stands alone. -/
structure Numeral where
  negative : Bool := false
  whole : Digits
  alone : whole.first = 0 → whole.rest = []
  fraction : Option Digits := none
  exponent : Option Exponent := none

namespace Numeral

/-- What stands behind the digits before the point. -/
def tail (n : Numeral) : List Char := fractionText n.fraction ++ exponentText n.exponent

/-- The number without its sign. -/
def body (n : Numeral) : List Char := digitText n.whole.toList ++ n.tail

def text (n : Numeral) : List Char := if n.negative then '-' :: n.body else n.body

/-- The natural number that is written; none if there is a sign, a point or an
exponent. -/
def natural? (n : Numeral) : Option Nat :=
  if n.negative || n.fraction.isSome || n.exponent.isSome then none
  else some (digitValue 0 n.whole.toList)

end Numeral

/-! ## Values -/

/-- What stands between two marks of a list, with the blanks around it. -/
structure Slot (α : Type) where
  before : Gap := {}
  value : α
  after : Gap := {}

/-- A key and what stands behind its colon. -/
structure Member (α : Type) where
  before : Gap := {}
  key : List Glyph
  gap : Gap := {}
  slot : Slot α

/-- A JSON value. -/
inductive Value where
  | null
  | boolean (value : Bool)
  | numeral (n : Numeral)
  | quoted (glyphs : List Glyph)
  | list (gap : Gap) (slots : List (Slot Value))
  | object (gap : Gap) (members : List (Member Value))

mutual

/-- The text of a value. -/
def Value.text : Value → List Char
  | .null => ['n', 'u', 'l', 'l']
  | .boolean true => ['t', 'r', 'u', 'e']
  | .boolean false => ['f', 'a', 'l', 's', 'e']
  | .numeral n => n.text
  | .quoted glyphs => quotedText glyphs
  | .list gap slots => '[' :: (gap.chars ++ (slotsText slots ++ [']']))
  | .object gap members => '\x7b' :: (gap.chars ++ (membersText members ++ ['\x7d']))

def slotText : Slot Value → List Char
  | ⟨before, value, after⟩ => before.chars ++ (value.text ++ after.chars)

def slotsText : List (Slot Value) → List Char
  | [] => []
  | slot :: slots => slotText slot ++ moreSlots slots

/-- The values after the first, each behind a comma. -/
def moreSlots : List (Slot Value) → List Char
  | [] => []
  | slot :: slots => ',' :: (slotText slot ++ moreSlots slots)

def memberText : Member Value → List Char
  | ⟨before, key, gap, slot⟩ =>
      before.chars ++ (quotedText key ++ (gap.chars ++ ':' :: slotText slot))

def membersText : List (Member Value) → List Char
  | [] => []
  | member :: members => memberText member ++ moreMembers members

/-- The members after the first, each behind a comma. -/
def moreMembers : List (Member Value) → List Char
  | [] => []
  | member :: members => ',' :: (memberText member ++ moreMembers members)

end

theorem printMore_cons {α : Type} (print : α → List Char) (item : α) (items : List α) :
    printMore print (item :: items) = ',' :: (print item ++ printMore print items) := by
  simp [printMore]

/-- How items are printed one by one tells how they are printed together. -/
theorem printItems_map {α : Type} (print : α → List Char) :
    ∀ items, printItems print items = printItems id (items.map print)
  | [] => rfl
  | [_] => rfl
  | item :: next :: rest => by
      rw [printItems, List.map_cons, List.map_cons, printItems, printItems_map print (next :: rest)]
      rfl

theorem slotsText_eq : ∀ slots, slotsText slots = printItems slotText slots
  | [] => rfl
  | slot :: slots => by rw [slotsText, printItems_cons, moreSlots_eq]
where
  moreSlots_eq : ∀ slots, moreSlots slots = printMore slotText slots
    | [] => rfl
    | slot :: slots => by rw [moreSlots, printMore_cons, moreSlots_eq slots]

theorem membersText_eq : ∀ members, membersText members = printItems memberText members
  | [] => rfl
  | member :: members => by rw [membersText, printItems_cons, moreMembers_eq]
where
  moreMembers_eq : ∀ members, moreMembers members = printMore memberText members
    | [] => rfl
    | member :: members => by rw [moreMembers, printMore_cons, moreMembers_eq members]

theorem list_append (inner : Gap) (slots : List (Slot Value)) (rest : List Char) :
    (Value.list inner slots).text ++ rest =
      '[' :: (inner.chars ++ (printItems slotText slots ++ ']' :: rest)) := by
  simp [Value.text, slotsText_eq]

theorem object_append (inner : Gap) (members : List (Member Value)) (rest : List Char) :
    (Value.object inner members).text ++ rest =
      '\x7b' :: (inner.chars ++ (printItems memberText members ++ '\x7d' :: rest)) := by
  simp [Value.text, membersText_eq]

/-- The text outlasts the items that are still to come. -/
theorem length_behind {α : Type} (gap : Gap) (print : α → List Char) (items : List α)
    (mark : Char) (rest : List Char) :
    items.length < (gap.chars ++ (printMore print items ++ mark :: rest)).length := by
  have hLength := length_printMore print items mark rest
  rw [List.length_append]
  omega

theorem sizeOf_slot {slots : List (Slot Value)} {slot : Slot Value} (hMem : slot ∈ slots)
    (gap : Gap) : sizeOf slot.value < sizeOf (Value.list gap slots) := by
  have hLess := List.sizeOf_lt_of_mem hMem
  obtain ⟨before, value, after⟩ := slot
  simp only [Value.list.sizeOf_spec, Slot.mk.sizeOf_spec] at hLess ⊢
  omega

theorem sizeOf_member {members : List (Member Value)} {member : Member Value}
    (hMem : member ∈ members) (gap : Gap) :
    sizeOf member.slot.value < sizeOf (Value.object gap members) := by
  have hLess := List.sizeOf_lt_of_mem hMem
  obtain ⟨before, key, inner, before', value, after⟩ := member
  simp only [Value.object.sizeOf_spec, Member.mk.sizeOf_spec, Slot.mk.sizeOf_spec] at hLess ⊢
  omega

/-- What holds of every value if it holds of a list or an object of which it holds of
all that is inside. -/
@[elab_as_elim]
theorem Value.induct {P : Value → Prop} (null : P .null) (boolean : ∀ value, P (.boolean value))
    (numeral : ∀ n, P (.numeral n)) (quoted : ∀ glyphs, P (.quoted glyphs))
    (list : ∀ gap slots, (∀ slot ∈ slots, P slot.value) → P (.list gap slots))
    (object : ∀ gap members, (∀ member ∈ members, P member.slot.value) →
      P (.object gap members)) : ∀ v : Value, P v
  | .null => null
  | .boolean value => boolean value
  | .numeral n => numeral n
  | .quoted glyphs => quoted glyphs
  | .list gap slots => list gap slots fun slot _hMem =>
      induct null boolean numeral quoted list object slot.value
  | .object gap members => object gap members fun member _hMem =>
      induct null boolean numeral quoted list object member.slot.value
termination_by v => sizeOf v
decreasing_by
  · exact sizeOf_slot _hMem gap
  · exact sizeOf_member _hMem gap

end RelayRace.Json
