/-!
Faults are what a sink answers when it refuses a request: a kind, on which callers decide, and a
message, which they show. Two kinds matter to a writer. An interrupted request is made again, and
a broken pipe means that nobody reads any more; a fault of any other kind ends the work and is
reported.
-/

namespace CountingLoops

/-- The kinds of failure of an input or output request. -/
inductive Fault.Kind where
  | notFound
  | permissionDenied
  | connectionRefused
  | connectionReset
  | hostUnreachable
  | networkUnreachable
  | connectionAborted
  | notConnected
  | addressInUse
  | addressNotAvailable
  | networkDown
  | brokenPipe
  | alreadyExists
  | wouldBlock
  | notADirectory
  | isADirectory
  | directoryNotEmpty
  | readOnlyFilesystem
  | staleNetworkFileHandle
  | invalidInput
  | invalidData
  | timedOut
  | writeZero
  | storageFull
  | notSeekable
  | quotaExceeded
  | fileTooLarge
  | resourceBusy
  | executableFileBusy
  | deadlock
  | tooManyLinks
  | argumentListTooLong
  | interrupted
  | unsupported
  | unexpectedEnd
  | outOfMemory
  | other
  deriving DecidableEq

/-- The message of a fault of which only the kind is known. -/
def Fault.Kind.description : Fault.Kind → String
  | .notFound => "entity not found"
  | .permissionDenied => "permission denied"
  | .connectionRefused => "connection refused"
  | .connectionReset => "connection reset"
  | .hostUnreachable => "host unreachable"
  | .networkUnreachable => "network unreachable"
  | .connectionAborted => "connection aborted"
  | .notConnected => "not connected"
  | .addressInUse => "address in use"
  | .addressNotAvailable => "address not available"
  | .networkDown => "network down"
  | .brokenPipe => "broken pipe"
  | .alreadyExists => "entity already exists"
  | .wouldBlock => "operation would block"
  | .notADirectory => "not a directory"
  | .isADirectory => "is a directory"
  | .directoryNotEmpty => "directory not empty"
  | .readOnlyFilesystem => "read-only filesystem or storage medium"
  | .staleNetworkFileHandle => "stale network file handle"
  | .invalidInput => "invalid input parameter"
  | .invalidData => "invalid data"
  | .timedOut => "timed out"
  | .writeZero => "write zero"
  | .storageFull => "no storage space"
  | .notSeekable => "seek on unseekable file"
  | .quotaExceeded => "quota exceeded"
  | .fileTooLarge => "file too large"
  | .resourceBusy => "resource busy"
  | .executableFileBusy => "executable file busy"
  | .deadlock => "deadlock"
  | .tooManyLinks => "too many links"
  | .argumentListTooLong => "argument list too long"
  | .interrupted => "operation interrupted"
  | .unsupported => "unsupported"
  | .unexpectedEnd => "unexpected end of file"
  | .outOfMemory => "out of memory"
  | .other => "other error"

/-- A refused request. -/
structure Fault where
  kind : Fault.Kind
  message : String
  deriving DecidableEq

namespace Fault

/-- A fault with the message that describes its kind. -/
def ofKind (kind : Kind) : Fault := ⟨kind, kind.description⟩

/-- The fault of a writer whose sink takes none of the bytes that are left. -/
def unfinishedWrite : Fault := ⟨.writeZero, "failed to write whole buffer"⟩

/-- The faults after which a writer does not make the same request again. -/
abbrev Final := { fault : Fault // fault.kind ≠ .interrupted }

end Fault

end CountingLoops
