import RelayRace.Json.Entry

/-!
# Writing server list entries

The written form of a list is compact: no blanks, every field of every entry in
the order of `Field.all`, absent options as null. Texts stand in quotes; only
quotes, backslashes and control characters are escaped in them.
-/

namespace RelayRace.Json

open Text

/-- A control character by its code unit. -/
def unitEscape (c : Char) : List Char := ['\\', 'u'] ++ hexPadded 4 c.toNat

/-- One character of a written text. -/
def printChar (c : Char) : List Char :=
  if c = '"' then ['\\', '"']
  else if c = '\\' then ['\\', '\\']
  else if c = '\x08' then ['\\', 'b']
  else if c = '\x0c' then ['\\', 'f']
  else if c = '\n' then ['\\', 'n']
  else if c = '\r' then ['\\', 'r']
  else if c = '\t' then ['\\', 't']
  else if c.toNat < 0x20 then unitEscape c
  else [c]

/-- A text in quotes. -/
def printText (text : String) : List Char := '"' :: text.toList.flatMap printChar ++ ['"']

/-- An optional value, null when it is absent. -/
def printOptional {α : Type} (print : α → List Char) : Option α → List Char
  | some value => print value
  | none => "null".toList

/-- A port. -/
def printPort (port : UInt16) : List Char := Nat.toDigits 10 port.toNat

/-- Items with commas between them. -/
def printItems {α : Type} (print : α → List Char) : List α → List Char
  | [] => []
  | [item] => print item
  | item :: next :: rest => print item ++ ',' :: printItems print (next :: rest)

/-- A list. -/
def printList {α : Type} (print : α → List Char) (items : List α) : List Char :=
  '[' :: printItems print items ++ [']']

/-- The value of a field of an entry. -/
def Field.print (entry : Candidate) : Field → List Char
  | .ipAddress => printText entry.ipAddress
  | .region => printText entry.region
  | .capabilities => printList (fun c => printText c.name) entry.capabilities
  | .sshPort => printOptional printPort entry.sshPort
  | .sshObfuscatedPort => printOptional printPort entry.sshObfuscatedPort
  | .sshObfuscatedKey => printText entry.sshObfuscatedKey
  | .meekServerPort => printOptional printPort entry.meekServerPort
  | .meekObfuscatedKey => printText entry.meekObfuscatedKey
  | .meekCookieKey => printText entry.meekCookieKey
  | .meekFrontingDomain => printOptional printText entry.meekFrontingDomain
  | .meekFrontingHost => printOptional printText entry.meekFrontingHost
  | .connType => printOptional (fun p => printText p.name) entry.connType
  | .front => printOptional printText entry.front

/-- A field of an entry: key and value. -/
def printMember (entry : Candidate) (field : Field) : List Char :=
  printText field.key ++ ':' :: field.print entry

/-- An entry. -/
def printEntry (entry : Candidate) : List Char :=
  '\x7b' :: printItems (printMember entry) Field.all ++ ['\x7d']

/-- A server list. -/
def printEntries (entries : List Candidate) : String :=
  String.ofList (printList printEntry entries)

end RelayRace.Json
