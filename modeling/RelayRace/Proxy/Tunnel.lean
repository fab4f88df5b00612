import RelayRace.Proxy.Request
import RelayRace.Proxy.Status

/-!
# Opening a tunnel through a proxy

The exchange writes the whole request, then reads the head of the answer one
byte at a time up to and including the first empty line, so that no byte behind
the head is taken from the tunnelled connection. A head of more than
`headLimit` bytes is refused.

A `Wire` is one end of a connection to the proxy: what is still to come in and
how much can still go out. Everything the exchange does to the connection is
seen on the wire afterwards.
-/

namespace RelayRace.Proxy

open Text

/-! ## Wires -/

/-- What comes in at once: some bytes, or a fault in their place. -/
inductive Arrival where
  | data (bytes : List UInt8)
  | fault (fault : IoFault)
  deriving DecidableEq, Repr

/-- One end of a connection. -/
structure Wire where
  /-- What is still to come in. -/
  incoming : List Arrival
  /-- Whether the other side stays silent after that instead of closing. -/
  heldOpen : Bool := false
  /-- How many bytes one write takes at most. -/
  writeMax : Option Nat := none
  /-- How many bytes go out before writing fails. -/
  room : Option Nat := none
  /-- How writing fails; without a fault a write then takes nothing. -/
  writeFault : Option IoFault := none
  /-- What went out. -/
  written : List UInt8 := []
  deriving DecidableEq, Repr

/-- What reading one byte leads to. -/
inductive Reading where
  | byte (value : UInt8)
  | fault (fault : IoFault)
  | ended
  | silent
  deriving DecidableEq, Repr

namespace Wire

/-- Takes the next byte or fault off what is to come; none when all is taken. -/
def take : List Arrival → Option (Reading × List Arrival)
  | [] => none
  | .data [] :: rest => take rest
  | .data (b :: bytes) :: rest => some (.byte b, .data bytes :: rest)
  | .fault fault :: rest => some (.fault fault, rest)

/-- Reads one byte. -/
def read (wire : Wire) : Reading × Wire :=
  match take wire.incoming with
  | some (reading, rest) => (reading, { wire with incoming := rest })
  | none => (if wire.heldOpen then .silent else .ended, { wire with incoming := [] })

/-- The bytes that are still to come in. -/
def unread (wire : Wire) : List UInt8 :=
  wire.incoming.flatMap fun
    | .data bytes => bytes
    | .fault _ => []

/-- How many of some bytes one write takes. -/
def accepts (wire : Wire) (count : Nat) : Nat :=
  let limited := match wire.writeMax with
    | some most => min most count
    | none => count
  match wire.room with
  | some room => min room limited
  | none => limited

/-- Lets bytes go out. -/
def put (wire : Wire) (bytes : List UInt8) : Wire :=
  { wire with
    written := wire.written ++ bytes
    room := wire.room.map (· - bytes.length) }

/-- How a write that takes nothing is told: by the fault that is set, if room
ran out, else as a write of nothing. -/
def refusal (wire : Wire) : IoFault :=
  match wire.room, wire.writeFault with
  | some 0, some fault => fault
  | _, _ => .ofKind .writeZero

/-- Writes all of some bytes, in as many writes as that takes. -/
def writeAll (wire : Wire) (bytes : List UInt8) : Except IoFault Unit × Wire :=
  if _hDone : bytes.length = 0 then (.ok (), wire)
  else if _hNone : wire.accepts bytes.length = 0 then (.error wire.refusal, wire)
  else
    (wire.put (bytes.take (wire.accepts bytes.length))).writeAll
      (bytes.drop (wire.accepts bytes.length))
termination_by bytes.length
decreasing_by
  simp only [List.length_drop]
  omega

end Wire

/-! ## The answer -/

/-- How many bytes the head of an answer has at most. -/
def headLimit : Nat := 8192

/-- Whether bytes, given from the last to the first, end in an empty line. -/
def endsHead : List UInt8 → Bool
  | 10 :: 13 :: 10 :: 13 :: _ => true
  | _ => false

/-- How an exchange with the proxy stands: it waits for more of the answer, or
it came to a result. -/
inductive Exchange (α : Type) where
  | waiting
  | finished (result : Except Failure α)

/-- Reads on in the head of an answer, of which some bytes were read already,
the last one first, and `room` more are allowed. -/
def readHead : Nat → List UInt8 → Wire → Exchange (List UInt8) × Wire
  | room, reversed, wire =>
      if endsHead reversed then (.finished (.ok reversed.reverse), wire)
      else
        match room with
        | 0 => (.finished (.error (.proxyTunnel "proxy response header too large")), wire)
        | room + 1 =>
            match wire.read with
            | (.byte b, wire) => readHead room (b :: reversed) wire
            | (.fault fault, wire) =>
                (.finished
                  (.error (.proxyTunnel ("read CONNECT response: " ++ fault.text))), wire)
            | (.ended, wire) =>
                (.finished (.error (.proxyTunnel
                  "proxy closed connection before completing response")), wire)
            | (.silent, wire) => (.waiting, wire)

/-- What a complete head says about the tunnel that was asked for. -/
def verdict (host : String) (port : UInt16) (head : List UInt8) : Except Failure Unit :=
  let line := (Utf8.decode head).takeWhile (· != '\n')
  match readStatusLine line with
  | .error failure => .error failure
  | .ok status =>
      if isSuccess status then .ok ()
      else
        .error (.proxyTunnel ("proxy refused CONNECT to " ++ authority host port ++ ": " ++
          String.ofList (trim line)))

/-- Asks the proxy at the other end of a wire for a tunnel. -/
def openTunnel (wire : Wire) (host : String) (port : UInt16)
    (credentials : Option Credentials) : Exchange Unit × Wire :=
  match wire.writeAll (Utf8.encode (connectRequest host port credentials)) with
  | (.error fault, wire) =>
      (.finished (.error (.proxyTunnel ("write CONNECT: " ++ fault.text))), wire)
  | (.ok (), wire) =>
      match readHead headLimit [] wire with
      | (.waiting, wire) => (.waiting, wire)
      | (.finished (.error failure), wire) => (.finished (.error failure), wire)
      | (.finished (.ok head), wire) => (.finished (verdict host port head), wire)

end RelayRace.Proxy
