import LockTrace.Event.Order
import LockTrace.Notice
import LockTrace.Text.Utf8

namespace LockTrace

/-- How waiting for a crew ends: all have reported, or some had not when the deadline passed. -/
inductive Outcome
  | completed
  | stalled (pending : List String)
  deriving DecidableEq, Repr

/-- What a worker says when it ends. A worker that panics still reports. -/
structure WorkerReport where
  name : String
  result : Except String Unit

/-- What one attempt to receive a report comes to: a report, the deadline, or the news that no
worker is left that could report. -/
inductive Receipt
  | report (r : WorkerReport)
  | timedOut
  | closed

/-- What a panicking worker throws. -/
inductive Payload
  | text (s : String)
  | other
  deriving DecidableEq, Repr

def Payload.message : Payload → String
  | .text s => s!"panicked: {s}"
  | .other => "panicked: non-string payload"

namespace Crew

/-- A name in its place among names in ascending order; each stands once. -/
def insertName (n : String) : List String → List String
  | [] => [n]
  | m :: ms => if n = m then m :: ms else if n < m then n :: m :: ms else m :: insertName n ms

/-- The names that have to report. Workers of one name are expected once. -/
def expected (names : List String) : List String := names.foldl (fun ms n => insertName n ms) []

def finished (name : String) : Notice := ⟨.debug, "worker finished", [("worker", name)]⟩

/-- The outcome once nobody is awaited any more: success, or all failures in order of arrival. -/
def conclude (failures : List String) : Except String Outcome :=
  if failures.isEmpty then .ok .completed else .error ("; ".intercalate failures)

/-- Waits for reports until nobody is awaited any more. Every name is awaited until a first report
under it arrives, and failures are kept for the end. -/
def waitFrom (pending failures : List String) :
    List Receipt → Except String Outcome × List Notice
  | [] => (if pending.isEmpty then conclude failures else .ok (.stalled pending), [])
  | receipt :: rest =>
    if pending.isEmpty then (conclude failures, [])
    else match receipt with
      | .report ⟨name, .ok ()⟩ =>
        let (outcome, notices) := waitFrom (pending.erase name) failures rest
        (outcome, finished name :: notices)
      | .report ⟨name, .error e⟩ =>
        waitFrom (pending.erase name) (failures ++ [s!"{name}: {e}"]) rest
      | .closed =>
        (.error ("workers exited without reporting: " ++ ", ".intercalate pending), [])
      | .timedOut => (.ok (.stalled pending), [])

/-- The outcome of a crew of these workers, and what is said on the way. -/
def wait (names : List String) (receipts : List Receipt) : Except String Outcome × List Notice :=
  waitFrom (expected names) [] receipts

/-- The bytes of a name that no thread can bear, with the place of the first zero. -/
def nameFault? (name : String) : Option (Nat × List UInt8) :=
  let bytes := Text.Utf8.encode name.toList
  (bytes.findIdx? (· = 0)).map (·, bytes)

/-- What is said of such a name. -/
def nameMessage (place : Nat) (bytes : List UInt8) : String :=
  "thread name may not contain interior null bytes: NulError(" ++ toString place ++ ", [" ++
    ", ".intercalate (bytes.map fun b => toString b.toNat) ++ "])"

/-- How a worker behaves: it ends, throws something, dies without a word, or never ends. -/
inductive Behaviour
  | ends (result : Except String Unit)
  | panics (payload : Payload)
  | vanishes
  | hangs

def Behaviour.result? : Behaviour → Option (Except String Unit)
  | .ends r => some r
  | .panics p => some (.error p.message)
  | .vanishes | .hangs => none

/-- What a crew receives whose workers ran one after the other: their reports, and then silence,
which is final only if none of them hangs. -/
def receipts (workers : List (String × Behaviour)) : List Receipt :=
  let hangs := workers.any fun w => match w.2 with
    | .hangs => true
    | _ => false
  workers.filterMap (fun (name, b) => b.result?.map fun r => .report ⟨name, r⟩) ++
    [if hangs then .timedOut else .closed]

end Crew

end LockTrace
