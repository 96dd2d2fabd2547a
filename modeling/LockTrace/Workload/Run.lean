import LockTrace.Sink.Desk
import LockTrace.Workload.Barrier
import LockTrace.Workload.Command
import LockTrace.Workload.Contention
import LockTrace.Workload.Counter
import LockTrace.Workload.Crew
import LockTrace.Workload.Inversion
import LockTrace.Workload.Queue
import LockTrace.Workload.Schedule
import LockTrace.Workload.Stress

namespace LockTrace

/-- What a workload is run with: a deadline in milliseconds, and the number of workers if it was
given. -/
structure Settings where
  deadline : Nat
  workers : Option Nat
  deriving DecidableEq, Repr

/-- A run of a workload: how it ended, what was said, and the emitters with all that arrived. -/
structure Run where
  outcome : Except String Outcome
  notices : List Notice
  desk : Desk

namespace Workload

/-- The time of day goes into the records. -/
def stamp (now : Nat) (d : Desk) : Desk := { d with clock := ⟨UInt64.ofNat now⟩ }

/-- More moves than any of these workloads makes with so many workers. -/
def budget (workers : Nat) : Nat := 1000 * (workers + 2)

/-- Lets workers with these names go through a script until the deadline, and waits for them as a
crew. -/
def conduct {V σ : Type} (script : Script V σ) (workers : List ThreadId) (name : ThreadId → String)
    (place : ThreadId → σ) (rest : σ) (value : V) (settings : Settings) (pace : Nat)
    (desk : Desk) (opening : Notice) : Run × World V Desk :=
  let places : Table ThreadId σ := ⟨rest, workers.map fun t => (t, place t)⟩
  let world : World V Desk := { mutexes := ⟨{ value }, []⟩, recorder := desk }
  let plan : Schedule.Plan V Desk σ := ⟨script, workers, pace, stamp⟩
  let s := Schedule.run plan settings.deadline (budget workers.length) { play := { world, places } }
  let receipts := s.play.ended.map (fun (t, r) => .report ⟨name t, r⟩) ++ [.timedOut]
  let (outcome, said) := Crew.wait (workers.map name) receipts
  let world := s.play.world
  (⟨outcome, opening :: world.notices ++ said, world.recorder⟩, world)

/-- Workers are numbered from one. -/
def team (n : Nat) : List ThreadId := (List.range n).map (· + 1)

/-- Runs a workload whose emitter is the first one of the desk. Pauses are divided by `pace`. -/
def run (c : Command) (settings : Settings) (pace : Nat) (desk : Desk) : Run :=
  match c with
  | .barrierRendezvous =>
    let n := settings.workers.getD 4
    (conduct (Barrier.script n) (team n) Barrier.workerName (fun _ => .starting) .starting
      ⟨0, 0⟩ settings pace desk (Barrier.opening n)).1
  | .counterIncrement =>
    let n := settings.workers.getD 2
    let (r, w) := conduct Counter.script (team n) Counter.workerName (fun _ => Counter.start)
      Counter.start 0 settings pace desk (Counter.opening n)
    match r.outcome with
    | .ok .completed => { r with notices := r.notices ++ [Counter.closing (w.mutex 0).value] }
    | _ => r
  | .holdContention =>
    let n := settings.workers.getD 5
    (conduct Contention.script (team n) Contention.workerName (fun _ => .starting) .starting
      () settings pace desk (Contention.opening n)).1
  | .mutexLockOrderInversion =>
    (conduct Inversion.script (team 2) (fun t => (Inversion.partyOf t).name) (fun _ => .locking)
      .locking () settings pace desk (Inversion.opening settings.deadline)).1
  | .producerConsumer =>
    let n := settings.workers.getD 1
    (conduct (Queue.script Queue.itemCount) (0 :: team n) Queue.workerName
      (Queue.start Queue.itemCount) (.consumer .locking) ⟨[], false⟩ settings pace desk
      (Queue.opening n)).1

/-- The outlet of a run that is watched from inside the process. -/
def watched : String := "records"

/-- An emitter that writes to memory without fail. -/
def memoryDesk : Desk :=
  let output : Labelled := ⟨watched, ⟨.none, 0, none, 0, .nothingWritten, 0⟩⟩
  { sinks := ⟨.discard, [(0, .writer output)]⟩ }

/-- The world after workers have gone round locks of these names, all through one emitter. -/
def stress (names : List String) (threads rounds : Nat) (poisons : Bool) : World Int64 Desk :=
  let workers := List.range threads
  let world : World Int64 Desk :=
    { mutexes := ⟨{ value := 0, poisons }, []⟩, recorder := memoryDesk }
  let plan : Schedule.Plan Int64 Desk Stress.Place :=
    ⟨Stress.script names rounds, workers, 1, stamp⟩
  let fuel := (20 * rounds + 2) * threads + 1
  (Schedule.run plan 1 fuel { play := { world, places := ⟨.locking 0, []⟩ } }).play.world

end Workload

end LockTrace
