import RelayRace.Json.Print
import RelayRace.Notice

/-!
# The stored server list

The list is ordered: the first entries are the ones that answered last. Two
operations change it. `moveToFront` brings the winners of a round to the front
and takes over what their probes wrote back; `merge` takes in entries that were
fetched from a remote source, in their place where the address is known and at
the end where it is not. Neither ever drops an entry.

A remote source is asked at most once in a minimum interval after it last
answered. A failed fetch does not count, so the next refresh asks again.
-/

namespace RelayRace

/-- The stored list and what is known of its remote source. -/
structure ServerList where
  entries : List Candidate := []
  /-- Whether there is a remote source. -/
  hasRemote : Bool := false
  /-- How long an answer of the source is good for. -/
  minInterval : Duration := .zero
  /-- When the source last answered. -/
  refreshedAt : Option Instant := none
  deriving DecidableEq, Repr

namespace ServerList

/-- The addresses in order. -/
def addresses (list : ServerList) : List String := list.entries.map Candidate.ipAddress

/-! ## Merging -/

/-- Takes in one fetched entry: in place of the first entry with its address, or
at the end. Tells how many entries were added. -/
def upsert (fetched : Candidate) : List Candidate → List Candidate × Nat
  | [] => ([fetched], 1)
  | entry :: rest =>
      if entry.sameServer fetched then (entry.replacedBy fetched :: rest, 0)
      else
        let (rest, added) := upsert fetched rest
        (entry :: rest, added)

/-- Takes in fetched entries one after the other and counts the added ones. -/
def mergeInto (entries : List Candidate) : List Candidate → List Candidate × Nat
  | [] => (entries, 0)
  | fetched :: rest =>
      let (entries, first) := upsert fetched entries
      let (entries, more) := mergeInto entries rest
      (entries, first + more)

/-- Merges fetched entries into the list and counts the added ones. -/
def merge (list : ServerList) (fetched : List Candidate) : ServerList × Nat :=
  let (entries, added) := mergeInto list.entries fetched
  ({ list with entries }, added)

/-! ## Reordering -/

/-- Moves the first entry of each winner from `entries` behind those that are in
front already. A winner that is in front already, or has no entry, is passed
over. -/
def moveOnto (front entries : List Candidate) : List Candidate → List Candidate
  | [] => front ++ entries
  | winner :: rest =>
      if front.any fun moved => moved.sameServer winner then moveOnto front entries rest
      else
        match entries.find? fun entry => entry.sameServer winner with
        | some entry =>
            moveOnto (front ++ [entry.takeWrittenBack winner])
              (entries.eraseP fun entry => entry.sameServer winner) rest
        | none => moveOnto front entries rest

/-- Moves the entries of the winners to the front, in the order of the winners. -/
def moveToFront (list : ServerList) (winners : List Candidate) : ServerList :=
  { list with entries := moveOnto [] list.entries winners }

/-! ## Refreshing -/

/-- What came of a refresh. -/
inductive Refresh where
  | noRemote
  | recent
  | failed (failure : Failure)
  | merged (added : Nat)
  deriving DecidableEq, Repr

/-- What a refresh tells the log. A failure is told by whoever asked. -/
def Refresh.notices : Refresh → List Notice
  | .noRemote | .failed _ => []
  | .recent => [.fetchedRecently]
  | .merged added => [.fetched added]

/-- Whether the remote source may be asked at this time. -/
def isDue (list : ServerList) (now : Instant) : Bool :=
  match list.refreshedAt with
  | some last => last + list.minInterval.nanos ≤ now
  | none => true

/-- Whether a refresh at this time asks the remote source. -/
def asksRemote (list : ServerList) (now : Instant) : Bool := list.hasRemote && list.isDue now

/-- Refreshes the list, given what the remote source answers if it is asked. -/
def refresh (list : ServerList) (now : Instant)
    (answer : Except Failure (List Candidate)) : Refresh × ServerList :=
  if !list.hasRemote then (.noRemote, list)
  else if !list.isDue now then (.recent, list)
  else
    match answer with
    | .error failure => (.failed (.remoteFetch failure.message), list)
    | .ok fetched =>
        let (list, added) := list.merge fetched
        (.merged added, { list with refreshedAt := some now })

/-! ## JSON -/

/-- The failure of a list that cannot be read. -/
def unreadable (fault : Json.Fault) : Failure := .store ("JSON error: " ++ fault.message)

/-- Reads a list. It has no remote source. -/
def ofJson (text : String) : Except Failure ServerList :=
  match Json.readEntries text with
  | .ok entries => .ok { entries }
  | .error fault => .error (unreadable fault)

/-- Writes the entries. -/
def toJson (list : ServerList) : String := Json.printEntries list.entries

end ServerList

end RelayRace
