import LockTrace.Threads.Script

namespace LockTrace.Barrier

def lockName : String := "BarrierLock"

/-- How many have arrived in the current generation, and how many generations are complete. -/
structure Phase where
  arrived : Nat
  generation : Nat
  deriving DecidableEq, Repr

/-- One more arrival. The last one of a generation completes it. -/
def Phase.arrive (parties : Nat) (p : Phase) : Phase :=
  if p.arrived + 1 = parties then ⟨0, p.generation + 1⟩ else ⟨p.arrived + 1, p.generation⟩

/-- The generation has not changed. -/
def sameGeneration (generation : Nat) : Condition Phase :=
  fun _ p => (p.generation = generation, p)

/-- Where a call of the barrier stands, up to its answer: whether it completed the generation. -/
inductive Wait
  | locking
  | arriving
  | notifying
  | waiting (generation : Nat)
  | leaving (leader : Bool)
  | failing (e : TraceError)
  | ended (answer : Except TraceError Bool)

/-- A call of the barrier, and `next` where it has ended. The last to arrive wakes the others, who
wait for the generation to change. -/
def Wait.action {σ : Type} (parties : Nat) (here : Wait → σ)
    (next : Except TraceError Bool → Action Phase σ) : Wait → Action Phase σ
  | .locking => .call (.lock .waits 0 0 lockName 0) fun
    | .failed e => here (.ended (.error e))
    | _ => here .arriving
  | .arriving => .call (.access 0 (Phase.arrive parties)) fun
    | .value p => here (if p.arrived = 0 then .notifying else .waiting p.generation)
    | _ => here (.leaving false)
  | .notifying => .call (.notifyAll 0) fun _ => here (.leaving true)
  | .waiting generation => .call (.waitWhile 0 0 (sameGeneration generation)) fun
    | .failed e => here (.failing e)
    | _ => here (.leaving false)
  | .leaving leader => .call (.leave .dropped 0) fun _ => here (.ended (.ok leader))
  | .failing e => .call (.leave .dropped 0) fun _ => here (.ended (.error e))
  | .ended answer => next answer

/-- Where a worker of the workload stands. -/
inductive Place
  | starting
  | working
  | arriving
  | inside (w : Wait)
  | passed
  | finishing
  | ended

def say (worker : Nat) (message : String) (more : List (String × String)) : Notice :=
  ⟨.info, message, ("worker", toString worker) :: more⟩

/-- Two phases of work with the barrier between them. -/
def script (parties : Nat) : Script Phase Place := fun t => fun
  | .starting => .note (say t "starting phase 1" []) .working
  | .working => .pause (50 * t) .arriving
  | .arriving => .note (say t "finished phase 1, waiting at barrier" []) (.inside .locking)
  | .inside w => w.action parties .inside fun
    | .ok leader =>
      let leader := if leader then "true" else "false"
      .note (say t "passed barrier, starting phase 2" [("leader", leader)]) .passed
    | .error e => .stop (.error e.message)
  | .passed => .pause 100 .finishing
  | .finishing => .note (say t "finished" []) .ended
  | .ended => .stop (.ok ())

def workerName (t : Nat) : String := s!"barrier.worker.{t}"

def opening (workers : Nat) : Notice :=
  ⟨.info, "barrier rendezvous", [("workers", toString workers)]⟩

end LockTrace.Barrier
