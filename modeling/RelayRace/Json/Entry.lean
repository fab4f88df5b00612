import RelayRace.Candidate
import RelayRace.Json.Scan

/-!
# Server list entries in JSON

A server list is a JSON array of entries. An entry is an object whose keys are
the names of its fields, or an array of their values in the order of
`Field.all`. What an entry leaves out keeps its empty value, keys that no field
has are passed over, and a key that is given twice is refused.

Each field has one reader, which sets it in the entry read so far; the two
forms of an entry differ only in how they find out which field comes next.
-/

namespace RelayRace.Json

open Text

/-! ## Values -/

/-- The fault of a value that does not begin as it is wanted to: the value is
named, a list or an object without being read. -/
def misfit (wanted : String) (cs : List Char) : Fault :=
  let named (read : Except Fault Found) : Fault :=
    match read with
    | .ok found => .mismatch found wanted
    | .error fault => fault
  match cs with
  | 'n' :: rest => named ((passWord "ull".toList rest).map fun _ => .null)
  | 't' :: rest => named ((passWord "rue".toList rest).map fun _ => .boolean true)
  | 'f' :: rest => named ((passWord "alse".toList rest).map fun _ => .boolean false)
  | '"' :: rest => named ((readQuoted rest).map fun read => .string read.1)
  | '-' :: rest => named ((readNumber true rest).map fun read => read.1.found)
  | '[' :: _ => .mismatch .sequence wanted
  | '\x7b' :: _ => .mismatch .map wanted
  | cs => named ((readNumber false cs).map fun read => read.1.found)

/-- Reads a text where `wanted` is what the reader calls it. -/
def readTextAs (wanted : String) (cs : List Char) : Scanned String :=
  match skipSpace cs with
  | '"' :: rest => readQuoted rest
  | cs => .error (misfit wanted cs)

/-- Reads a text. -/
def readText (cs : List Char) : Scanned String := readTextAs "a string" cs

/-- Reads null or a value. -/
def readOptional {α : Type} (read : List Char → Scanned α) (cs : List Char) :
    Scanned (Option α) :=
  match skipSpace cs with
  | 'n' :: rest => (passWord "ull".toList rest).map (none, ·)
  | cs => (read cs).map fun (value, rest) => (some value, rest)

/-- A number as a port, which has 16 bits. -/
def portOf (number : Number) : Except Fault UInt16 :=
  match number with
  | .natural n =>
      if n < 65536 then .ok (UInt16.ofNat n) else .error (.outOfBounds (.natural n) "u16")
  | .negative n => .error (.outOfBounds (.negative n) "u16")
  | .real bits => .error (.mismatch (.real bits) "u16")

/-- Reads a port. -/
def readPort (cs : List Char) : Scanned UInt16 :=
  let close (read : Scanned Number) : Scanned UInt16 :=
    match read with
    | .ok (number, rest) => (portOf number).map (·, rest)
    | .error fault => .error fault
  match skipSpace cs with
  | '-' :: rest => close (readNumber true rest)
  | c :: rest =>
      if isDigit c then close (readNumber false (c :: rest))
      else .error (misfit "u16" (c :: rest))
  | [] => .error .malformed

/-- The value that a name stands for. -/
def lookUp {α : Type} (all : List α) (name : α → String) (text : String) : Except Fault α :=
  match all.find? fun value => name value == text with
  | some value => .ok value
  | none => .error (.unknownName text (all.map name))

/-- Passes over the null of a name that is written as a key, and over the end
of its object. -/
def passUnit (cs : List Char) : Except Fault (List Char) :=
  match skipSpace cs with
  | 'n' :: rest =>
      match passWord "ull".toList rest with
      | .ok rest => passMark '\x7d' rest
      | .error fault => .error fault
  | cs => .error (misfit "unit" cs)

/-- Reads one of several names: as a text, or as the only key of an object whose
value is null. -/
def readName {α : Type} (all : List α) (name : α → String) (cs : List Char) : Scanned α :=
  match skipSpace cs with
  | '"' :: rest =>
      match readQuoted rest with
      | .ok (text, rest) => (lookUp all name text).map (·, rest)
      | .error fault => .error fault
  | '\x7b' :: rest =>
      match readTextAs "variant identifier" rest with
      | .error fault => .error fault
      | .ok (text, rest) =>
          match lookUp all name text with
          | .error fault => .error fault
          | .ok value =>
              match passMark ':' rest with
              | .ok rest => (passUnit rest).map (value, ·)
              | .error fault => .error fault
  | _ => .error .malformed

/-- Reads on in a list of which some items were read, the last one first. The
first number bounds the steps taken. -/
def readMoreItems {α : Type} (read : List Char → Scanned α) :
    Nat → List α → List Char → Scanned (List α)
  | 0, _, _ => .error .malformed
  | fuel + 1, reversed, cs =>
      match skipSpace cs with
      | ']' :: rest => .ok (reversed.reverse, rest)
      | ',' :: rest =>
          match read rest with
          | .ok (item, rest) => readMoreItems read fuel (item :: reversed) rest
          | .error fault => .error fault
      | _ => .error .malformed

/-- Reads a list. -/
def readList {α : Type} (read : List Char → Scanned α) (cs : List Char) : Scanned (List α) :=
  match skipSpace cs with
  | '[' :: rest =>
      match skipSpace rest with
      | ']' :: rest => .ok ([], rest)
      | rest =>
          match read rest with
          | .ok (item, rest) => readMoreItems read rest.length [item] rest
          | .error fault => .error fault
  | cs => .error (misfit "a sequence" cs)

/-! ## Fields -/

/-- The fields of an entry. -/
inductive Field where
  | ipAddress
  | region
  | capabilities
  | sshPort
  | sshObfuscatedPort
  | sshObfuscatedKey
  | meekServerPort
  | meekObfuscatedKey
  | meekCookieKey
  | meekFrontingDomain
  | meekFrontingHost
  | connType
  | front
  deriving DecidableEq, Repr

namespace Field

/-- Every field, in the order in which entries are written. -/
def all : List Field :=
  [ .ipAddress, .region, .capabilities, .sshPort, .sshObfuscatedPort, .sshObfuscatedKey
  , .meekServerPort, .meekObfuscatedKey, .meekCookieKey, .meekFrontingDomain
  , .meekFrontingHost, .connType, .front ]

/-- The key of a field. -/
def key : Field → String
  | .ipAddress => "ip_address"
  | .region => "region"
  | .capabilities => "capabilities"
  | .sshPort => "ssh_port"
  | .sshObfuscatedPort => "ssh_obfuscated_port"
  | .sshObfuscatedKey => "ssh_obfuscated_key"
  | .meekServerPort => "meek_server_port"
  | .meekObfuscatedKey => "meek_obfuscated_key"
  | .meekCookieKey => "meek_cookie_encryption_public_key"
  | .meekFrontingDomain => "meek_fronting_domain"
  | .meekFrontingHost => "meek_fronting_host"
  | .connType => "conn_type"
  | .front => "front"

/-- The field of a key. -/
def ofKey? (text : String) : Option Field := all.find? fun field => field.key == text

/-- Reads a value and sets it. -/
def setting {α : Type} (read : List Char → Scanned α) (set : α → Candidate) (cs : List Char) :
    Scanned Candidate :=
  (read cs).map fun (value, rest) => (set value, rest)

/-- Reads the value of a field into an entry. -/
def readInto (entry : Candidate) : Field → List Char → Scanned Candidate
  | .ipAddress => setting readText fun v => { entry with ipAddress := v }
  | .region => setting readText fun v => { entry with region := v }
  | .capabilities =>
      setting (readList (readName Capability.all Capability.name)) fun v =>
        { entry with capabilities := v }
  | .sshPort => setting (readOptional readPort) fun v => { entry with sshPort := v }
  | .sshObfuscatedPort =>
      setting (readOptional readPort) fun v => { entry with sshObfuscatedPort := v }
  | .sshObfuscatedKey => setting readText fun v => { entry with sshObfuscatedKey := v }
  | .meekServerPort => setting (readOptional readPort) fun v => { entry with meekServerPort := v }
  | .meekObfuscatedKey => setting readText fun v => { entry with meekObfuscatedKey := v }
  | .meekCookieKey => setting readText fun v => { entry with meekCookieKey := v }
  | .meekFrontingDomain =>
      setting (readOptional readText) fun v => { entry with meekFrontingDomain := v }
  | .meekFrontingHost =>
      setting (readOptional readText) fun v => { entry with meekFrontingHost := v }
  | .connType =>
      setting (readOptional (readName Protocol.all Protocol.name)) fun v =>
        { entry with connType := v }
  | .front => setting (readOptional readText) fun v => { entry with front := v }

end Field

/-! ## Entries -/

/-- Reads the value of a key into an entry, and tells which fields are set. A
key of no field is passed over together with its value. -/
def readMember (seen : List Field) (entry : Candidate) (cs : List Char) :
    Scanned (List Field × Candidate) :=
  match readQuoted cs with
  | .error fault => .error fault
  | .ok (key, rest) =>
      match Field.ofKey? key with
      | none =>
          match passMark ':' rest with
          | .ok rest => (skipValue rest).map ((seen, entry), ·)
          | .error fault => .error fault
      | some field =>
          if seen.contains field then .error (.repeatedKey key)
          else
            match passMark ':' rest with
            | .ok rest =>
                (field.readInto entry rest).map fun (entry, rest) => ((field :: seen, entry), rest)
            | .error fault => .error fault

/-- Reads on in an object, of which some fields are set. The first number
bounds the steps taken. -/
def readMoreMembers : Nat → List Field → Candidate → List Char → Scanned Candidate
  | 0, _, _, _ => .error .malformed
  | fuel + 1, seen, entry, cs =>
      match skipSpace cs with
      | '\x7d' :: rest => .ok (entry, rest)
      | ',' :: rest =>
          match skipSpace rest with
          | '"' :: rest =>
              match readMember seen entry rest with
              | .ok ((seen, entry), rest) => readMoreMembers fuel seen entry rest
              | .error fault => .error fault
          | _ => .error .malformed
      | _ => .error .malformed

/-- Reads an object whose opening brace was taken. -/
def readObject (cs : List Char) : Scanned Candidate :=
  match skipSpace cs with
  | '\x7d' :: rest => .ok ({}, rest)
  | '"' :: rest =>
      match readMember [] {} rest with
      | .ok ((seen, entry), rest) => readMoreMembers rest.length seen entry rest
      | .error fault => .error fault
  | _ => .error .malformed

/-- Reads on in an array of field values. It may end before any of the fields
that are still due, and has to end after the last one. -/
def readMoreValues : List Field → Candidate → List Char → Scanned Candidate
  | [], entry, cs => (passMark ']' cs).map (entry, ·)
  | field :: due, entry, cs =>
      match skipSpace cs with
      | ']' :: rest => .ok (entry, rest)
      | ',' :: rest =>
          match field.readInto entry rest with
          | .ok (entry, rest) => readMoreValues due entry rest
          | .error fault => .error fault
      | _ => .error .malformed

/-- Reads an array of field values whose opening bracket was taken. -/
def readValues (cs : List Char) : Scanned Candidate :=
  match Field.all, skipSpace cs with
  | _, ']' :: rest => .ok ({}, rest)
  | [], _ => .error .malformed
  | field :: due, cs =>
      match field.readInto {} cs with
      | .ok (entry, rest) => readMoreValues due entry rest
      | .error fault => .error fault

/-- Reads an entry of either form. -/
def readEntry (cs : List Char) : Scanned Candidate :=
  match skipSpace cs with
  | '\x7b' :: rest => readObject rest
  | '[' :: rest => readValues rest
  | cs => .error (misfit "struct ServerCandidate" cs)

/-- Reads a server list, behind which only blanks may follow. -/
def readEntries (text : String) : Except Fault (List Candidate) :=
  match readList readEntry text.toList with
  | .ok (entries, rest) =>
      match skipSpace rest with
      | [] => .ok entries
      | _ :: _ => .error .malformed
  | .error fault => .error fault

end RelayRace.Json
