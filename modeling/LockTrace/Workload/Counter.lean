import LockTrace.Threads.Script

namespace LockTrace.Counter

/-- How often each worker counts. -/
def rounds : Nat := 5

def lockName : String := "SharedCounterMutex"

/-- Where a worker stands, with the number of rounds left. -/
inductive Place
  | locking (left : Nat)
  | adding (left : Nat)
  | telling (left : Nat) (value : Nat)
  | holding (left : Nat)
  | leaving (left : Nat)
  | resting (left : Nat)
  | ended (result : Except String Unit)

def incremented (worker value : Nat) : Notice :=
  ⟨.info, "incremented", [("worker", toString worker), ("counter", toString value)]⟩

/-- Every worker counts one up under the lock, keeps the lock for a while and rests, a number of
times. -/
def script : Script Nat Place := fun t => fun
  | .locking 0 => .stop (.ok ())
  | .locking (n + 1) => .call (.lock .waits 0 0 lockName 0) fun
    | .failed e => .ended (.error e.message)
    | _ => .adding n
  | .adding n => .call (.access 0 (· + 1)) fun
    | .value v => .telling n v
    | _ => .holding n
  | .telling n v => .note (incremented t v) (.holding n)
  | .holding n => .pause 50 (.leaving n)
  | .leaving n => .call (.leave .dropped 0) fun _ => .resting n
  | .resting n => .pause 20 (.locking n)
  | .ended r => .stop r

def start : Place := .locking rounds

def workerName (t : Nat) : String := s!"counter.worker.{t}"

def opening (workers : Nat) : Notice :=
  ⟨.info, "counter increment: no deadlock expected", [("workers", toString workers)]⟩

def closing (total : Nat) : Notice :=
  ⟨.info, "final counter value", [("total", toString total)]⟩

end LockTrace.Counter
