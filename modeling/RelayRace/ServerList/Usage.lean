import RelayRace.ServerList

/-!
# A stored list in use

A refresh takes its time. When it is called it looks at the clock, and if the
remote source is to be asked, it waits for the answer. Meanwhile the list is
reordered and merged into as ever. When the answer is there it is merged, and the
time that is kept is the time of that moment, not the one of the call. A refresh
whose caller lost interest is dropped, and nothing is kept of it.

One refresh goes on at a time, and the clock never goes back. Whoever sets the
remote source or the minimum interval owns the list, so no refresh goes on then.
-/

namespace RelayRace

/-! ## The two halves of a refresh -/

namespace ServerList

/-- What came of a refresh that did not ask. -/
def skipped (list : ServerList) : Refresh := if list.hasRemote then .recent else .noRemote

/-- The second half of a refresh that asked: it takes the answer. -/
def takeAnswer (list : ServerList) (now : Instant) :
    Except Failure (List Candidate) → Refresh × ServerList
  | .error failure => (.failed (.remoteFetch failure.message), list)
  | .ok fetched =>
      let (list, added) := list.merge fetched
      (.merged added, { list with refreshedAt := some now })

/-- What the caller of a refresh is given. -/
def Refresh.result : Refresh → Except Failure Unit
  | .failed failure => .error failure
  | .noRemote | .recent | .merged _ => .ok ()

end ServerList

/-! ## One event after the other -/

/-- What can happen to a stored list. Reading it is left out. -/
inductive ListEvent where
  | setRemote
  | setMinInterval (interval : Duration)
  | moveToFront (winners : List Candidate)
  | merge (fetched : List Candidate)
  /-- A refresh is called. -/
  | refresh (now : Instant)
  /-- The remote source answers the refresh that waits. -/
  | answer (now : Instant) (answer : Except Failure (List Candidate))
  /-- The refresh that waits is dropped. -/
  | drop

/-- What an event comes to for the caller of a refresh. -/
inductive ListReply where
  | nothing
  /-- The remote source is asked. -/
  | asked
  /-- The refresh is over. -/
  | refreshed (result : ServerList.Refresh)
  deriving DecidableEq, Repr

/-- A stored list with the refresh that goes on. -/
structure ListInUse where
  list : ServerList
  /-- Whether a refresh waits for the remote source. -/
  waiting : Bool := false
  /-- When the clock was last looked at. -/
  clock : Instant := 0
  deriving DecidableEq, Repr

namespace ListInUse

/-- A list as it is made: without a remote source. -/
def ofEntries (entries : List Candidate) : ListInUse := { list := { entries } }

/-- One event; none when it cannot happen now. -/
def step (s : ListInUse) : ListEvent → Option (ListInUse × ListReply)
  | .setRemote =>
      if s.waiting then none
      else some ({ s with list := { s.list with hasRemote := true } }, .nothing)
  | .setMinInterval interval =>
      if s.waiting then none
      else some ({ s with list := { s.list with minInterval := interval } }, .nothing)
  | .moveToFront winners => some ({ s with list := s.list.moveToFront winners }, .nothing)
  | .merge fetched => some ({ s with list := (s.list.merge fetched).1 }, .nothing)
  | .refresh now =>
      if s.waiting || now < s.clock then none
      else if s.list.asksRemote now then some ({ s with waiting := true, clock := now }, .asked)
      else some ({ s with clock := now }, .refreshed s.list.skipped)
  | .answer now answer =>
      if !s.waiting || now < s.clock then none
      else
        let (result, list) := s.list.takeAnswer now answer
        some ({ list, waiting := false, clock := now }, .refreshed result)
  | .drop => if s.waiting then some ({ s with waiting := false }, .nothing) else none

end ListInUse

end RelayRace
