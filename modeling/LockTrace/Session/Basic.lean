import LockTrace.Sink.Desk
import LockTrace.Threads.Step

namespace LockTrace.Session

/-- The numbers behind the names of things of one sort. A name that is given again means the new
thing. -/
structure Registry where
  known : List (String × Nat) := []

namespace Registry

def find? (r : Registry) (name : String) : Option Nat := r.known.lookup name

/-- A new thing under this name. -/
def declare (r : Registry) (name : String) : Nat × Registry :=
  (r.known.length, ⟨(name, r.known.length) :: r.known⟩)

/-- The thing of this name, which is made if there is none. -/
def intern (r : Registry) (name : String) : Nat × Registry :=
  match r.find? name with
  | some n => (n, r)
  | none => r.declare name

def nameOf (r : Registry) (n : Nat) : String :=
  ((r.known.find? (·.2 = n)).map (·.1)).getD ""

end Registry

/-- A comparison with a number. -/
inductive Comparison
  | lt
  | le
  | eq
  | ne
  | gt
  | ge
  deriving DecidableEq, Repr

namespace Comparison

def ofWord? (s : String) : Option Comparison :=
  match s with
  | "lt" => some .lt
  | "le" => some .le
  | "eq" => some .eq
  | "ne" => some .ne
  | "gt" => some .gt
  | "ge" => some .ge
  | _ => none

def holds (a b : Int64) : Comparison → Bool
  | .lt => a < b
  | .le => a ≤ b
  | .eq => a = b
  | .ne => a ≠ b
  | .gt => b < a
  | .ge => b ≤ a

end Comparison

/-- What a thread of a session can be told to do. Guards go by names, for each thread has its own.
-/
inductive Op
  | emit (emitter : EmitterId) (kind : Kind) (label : String)
  | lock (patience : Patience) (emitter : EmitterId) (mutex : MutexId) (label guard : String)
  | leave (how : Leave) (guard : String)
  | get (guard : String)
  | set (guard : String) (n : Int64)
  | add (guard : String) (n : Int64)
  | look (guard : String)
  | wait (condvar : CondvarId) (guard : String)
  | waitWhile (condvar : CondvarId) (guard : String) (add : Int64) (test : Comparison)
    (bound : Int64)
  | notifyOne (condvar : CondvarId)
  | notifyAll (condvar : CondvarId)
  | tag

/-- One step of a session. -/
inductive Step
  | emitter (name : String) (sink : Sink Labelled)
  | configured (name : String) (setting : Option String)
  | replaceSink (emitter : EmitterId) (sink : Sink Labelled)
  | mutex (name : String) (poisons : Bool) (value : Int64)
  | condvar (name : String)
  | inspect (mutex : MutexId)
  | thread (name : String) (op : Op)

/-- Why a step is not taken. -/
inductive Refusal
  | noGuard
  | noLock
  | noCondvar
  | noEmitter
  | notSupported
  | busy
  deriving DecidableEq, Repr

/-- The state of a mutex as an outsider finds it. -/
inductive Finding
  | held
  | free (value : Int64)
  | poisoned (value : Int64)
  deriving DecidableEq, Repr

/-- What a step comes to. -/
inductive Reply
  | answer (a : Answer Int64)
  | blocked
  | shown (text : String)
  | found (f : Finding)
  | looked (g : Guard)
  | refused (r : Refusal)

/-- A step with all that came of it: the calls of other threads that ended now, what arrived at the
named outlets, and what was said beside the records. -/
structure Report where
  reply : Reply
  woke : List (String × Reply) := []
  arrived : List (String × List Chunk) := []
  notices : List Notice := []

end LockTrace.Session
