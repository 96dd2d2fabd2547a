import LockTrace.Record.Line

namespace LockTrace

/-- The families of failures that an output can report. -/
inductive IoKind
  | notFound
  | permissionDenied
  | connectionRefused
  | connectionReset
  | connectionAborted
  | notConnected
  | addrInUse
  | addrNotAvailable
  | brokenPipe
  | alreadyExists
  | wouldBlock
  | invalidInput
  | invalidData
  | timedOut
  | writeZero
  | storageFull
  | interrupted
  | unsupported
  | unexpectedEof
  | outOfMemory
  | other
  deriving DecidableEq, Repr

namespace IoKind

def name : IoKind → String
  | .notFound => "NotFound"
  | .permissionDenied => "PermissionDenied"
  | .connectionRefused => "ConnectionRefused"
  | .connectionReset => "ConnectionReset"
  | .connectionAborted => "ConnectionAborted"
  | .notConnected => "NotConnected"
  | .addrInUse => "AddrInUse"
  | .addrNotAvailable => "AddrNotAvailable"
  | .brokenPipe => "BrokenPipe"
  | .alreadyExists => "AlreadyExists"
  | .wouldBlock => "WouldBlock"
  | .invalidInput => "InvalidInput"
  | .invalidData => "InvalidData"
  | .timedOut => "TimedOut"
  | .writeZero => "WriteZero"
  | .storageFull => "StorageFull"
  | .interrupted => "Interrupted"
  | .unsupported => "Unsupported"
  | .unexpectedEof => "UnexpectedEof"
  | .outOfMemory => "OutOfMemory"
  | .other => "Other"

def all : List IoKind := [.notFound, .permissionDenied, .connectionRefused, .connectionReset,
  .connectionAborted, .notConnected, .addrInUse, .addrNotAvailable, .brokenPipe, .alreadyExists,
  .wouldBlock, .invalidInput, .invalidData, .timedOut, .writeZero, .storageFull, .interrupted,
  .unsupported, .unexpectedEof, .outOfMemory, .other]

def ofName? (s : String) : Option IoKind := all.find? (·.name = s)

end IoKind

structure IoError where
  kind : IoKind
  message : String
  deriving DecidableEq, Repr

/-- A writer that takes nothing of what it is given. -/
def IoError.nothingWritten : IoError := ⟨.writeZero, "failed to write whole buffer"⟩

/-- Why an operation on a traced lock failed. -/
inductive TraceError
  | sink (cause : IoError)
  | encode (cause : Record.LineError)
  | invalidLabel
  | poisoned (lock : LockName)
  deriving DecidableEq, Repr

namespace TraceError

/-- The text of the cause alone. -/
def cause : TraceError → String
  | .sink e => e.message
  | .encode e => e.message
  | .invalidLabel => emptyLockMessage
  | .poisoned _ => "lock poisoned by a panicking holder"

def message : TraceError → String
  | .sink e => s!"failed to write trace record: {e.message}"
  | .encode e => s!"failed to encode trace record: {e.message}"
  | .invalidLabel => s!"invalid lock label: {emptyLockMessage}"
  | .poisoned lock => "failed to acquire lock \"" ++ lock.text ++ "\": " ++ (poisoned lock).cause

end TraceError

end LockTrace
