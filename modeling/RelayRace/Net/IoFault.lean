/-!
# Input and output faults

What the network or the operating system answers when an operation cannot be
carried out: a kind, by which the library decides, and the text that is shown.
-/

namespace RelayRace

/-- The kinds of input and output faults. -/
inductive IoKind where
  | notFound
  | permissionDenied
  | connectionRefused
  | connectionReset
  | hostUnreachable
  | networkUnreachable
  | connectionAborted
  | notConnected
  | addressInUse
  | addressNotAvailable
  | networkDown
  | brokenPipe
  | alreadyExists
  | wouldBlock
  | invalidInput
  | invalidData
  | timedOut
  | writeZero
  | interrupted
  | unsupported
  | unexpectedEnd
  | outOfMemory
  | other
  deriving DecidableEq, Repr

/-- The description of a fault of which nothing but the kind is known. -/
def IoKind.description : IoKind → String
  | .notFound => "entity not found"
  | .permissionDenied => "permission denied"
  | .connectionRefused => "connection refused"
  | .connectionReset => "connection reset"
  | .hostUnreachable => "host unreachable"
  | .networkUnreachable => "network unreachable"
  | .connectionAborted => "connection aborted"
  | .notConnected => "not connected"
  | .addressInUse => "address in use"
  | .addressNotAvailable => "address not available"
  | .networkDown => "network down"
  | .brokenPipe => "broken pipe"
  | .alreadyExists => "entity already exists"
  | .wouldBlock => "operation would block"
  | .invalidInput => "invalid input parameter"
  | .invalidData => "invalid data"
  | .timedOut => "timed out"
  | .writeZero => "write zero"
  | .interrupted => "operation interrupted"
  | .unsupported => "unsupported"
  | .unexpectedEnd => "unexpected end of file"
  | .outOfMemory => "out of memory"
  | .other => "other error"

/-- A fault as it is shown. -/
structure IoFault where
  kind : IoKind
  text : String
  deriving DecidableEq, Repr

namespace IoFault

/-- The fault of which nothing but the kind is known. -/
def ofKind (kind : IoKind) : IoFault := ⟨kind, kind.description⟩

/-- The kind and the description of an error number of the operating system. -/
def describe (errno : Nat) : IoKind × String :=
  match errno with
  | 2 => (.notFound, "No such file or directory")
  | 4 => (.interrupted, "Interrupted system call")
  | 11 => (.wouldBlock, "Resource temporarily unavailable")
  | 12 => (.outOfMemory, "Cannot allocate memory")
  | 13 => (.permissionDenied, "Permission denied")
  | 17 => (.alreadyExists, "File exists")
  | 22 => (.invalidInput, "Invalid argument")
  | 32 => (.brokenPipe, "Broken pipe")
  | 98 => (.addressInUse, "Address already in use")
  | 99 => (.addressNotAvailable, "Cannot assign requested address")
  | 100 => (.networkDown, "Network is down")
  | 101 => (.networkUnreachable, "Network is unreachable")
  | 103 => (.connectionAborted, "Software caused connection abort")
  | 104 => (.connectionReset, "Connection reset by peer")
  | 107 => (.notConnected, "Transport endpoint is not connected")
  | 110 => (.timedOut, "Connection timed out")
  | 111 => (.connectionRefused, "Connection refused")
  | 113 => (.hostUnreachable, "No route to host")
  | _ => (.other, "Unknown error " ++ toString errno)

/-- The fault that the operating system reports by an error number. -/
def ofErrno (errno : Nat) : IoFault :=
  let (kind, description) := describe errno
  ⟨kind, description ++ " (os error " ++ toString errno ++ ")"⟩

/-- Whether the fault says that there is no way to the other side at all. -/
def isUnreachable (fault : IoFault) : Bool :=
  match fault.kind with
  | .networkUnreachable | .hostUnreachable => true
  | _ => false

end IoFault

end RelayRace
