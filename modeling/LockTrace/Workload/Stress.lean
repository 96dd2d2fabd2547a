import LockTrace.Threads.Script

namespace LockTrace.Stress

/-- Where a worker stands in its round. -/
inductive Place
  | locking (round : Nat)
  | adding (round : Nat)
  | leaving (round : Nat)
  | ended (result : Except String Unit)

/-- The lock that a worker takes in a round: the workers go round the locks, each one step ahead
of its neighbour. -/
def lockOf (names : List String) (t round : Nat) : MutexId := (t + round) % names.length

/-- Every worker adds one to the value of one lock after the other, once in each round. -/
def script (names : List String) (rounds : Nat) : Script Int64 Place := fun t => fun
  | .locking r =>
    if r < rounds then
      let m := lockOf names t r
      .call (.lock .waits 0 m (names.getD m "") 0) fun
      | .failed e => .ended (.error e.message)
      | _ => .adding r
    else .stop (.ok ())
  | .adding r => .call (.access 0 (· + 1)) fun _ => .leaving r
  | .leaving r => .call (.leave .dropped 0) fun _ => .locking (r + 1)
  | .ended r => .stop r

end LockTrace.Stress
