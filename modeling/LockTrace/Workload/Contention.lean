import LockTrace.Threads.Script

namespace LockTrace.Contention

def lockName : String := "m1"

/-- How long each worker keeps the lock, in milliseconds. -/
def hold : Nat := 500

inductive Place
  | starting
  | locking
  | telling
  | holding
  | leaving
  | ended (result : Except String Unit)

def say (worker : Nat) (message : String) : Notice :=
  ⟨.info, message, [("worker", toString worker)]⟩

/-- Every worker takes the one lock and keeps it for a long time. -/
def script : Script Unit Place := fun t => fun
  | .starting => .note (say t "trying to get the lock") .locking
  | .locking => .call (.lock .waits 0 0 lockName 0) fun
    | .failed e => .ended (.error e.message)
    | _ => .telling
  | .telling => .note (say t "holding the lock") .holding
  | .holding => .pause hold .leaving
  | .leaving => .call (.leave .dropped 0) fun _ => .ended (.ok ())
  | .ended r => .stop r

def workerName (t : Nat) : String := s!"contention.worker.{t}"

def opening (workers : Nat) : Notice :=
  ⟨.info, "hold contention", [("workers", toString workers), ("hold_ms", toString hold)]⟩

end LockTrace.Contention
