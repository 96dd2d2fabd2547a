import LockTrace.Data.Table
import LockTrace.Notice
import LockTrace.Sink.Error

namespace LockTrace

abbrev ThreadId := Nat
abbrev MutexId := Nat
abbrev CondvarId := Nat
abbrev EmitterId := Nat

/-- A place in which a thread keeps guards. -/
abbrev Slot := Nat

/-- A mutex and what it protects. `poisons` says whether a holder that panics leaves it poisoned.
After that whoever gets it gives it back at once. -/
structure Mutex (V : Type) where
  value : V
  poisons : Bool := false
  holder : Option ThreadId := none
  poisoned : Bool := false

/-- A traced hold of a mutex, by the name under which it is recorded. -/
structure Guard where
  mutex : MutexId
  name : LockName
  emitter : EmitterId
  deriving DecidableEq, Repr

def Guard.describe (g : Guard) : String :=
  "ScopedLock \x7b name: LockName(" ++ Text.quoted g.name.text ++ "), held: true \x7d"

/-- Acquiring either waits for the mutex or gives up at once. -/
inductive Patience
  | waits
  | tries
  deriving DecidableEq, Repr

/-- How a guard comes to its end. -/
inductive Leave
  | released
  | dropped
  | unwound
  deriving DecidableEq, Repr

/-- A test of a protected value that may change it. It remembers the values it was shown before. -/
abbrev Condition (V : Type) := List V → V → Bool × V

/-- What a thread can ask for. -/
inductive Call (V : Type)
  | emit (e : EmitterId) (kind : Kind) (label : String)
  | lock (patience : Patience) (e : EmitterId) (m : MutexId) (label : String) (slot : Slot)
  | leave (how : Leave) (slot : Slot)
  | access (slot : Slot) (change : V → V)
  | wait (c : CondvarId) (slot : Slot)
  | waitWhile (c : CondvarId) (slot : Slot) (condition : Condition V)
  | notifyOne (c : CondvarId)
  | notifyAll (c : CondvarId)
  | tag

/-- What ends a call without an answer of its own. -/
inductive Panic
  | unwinding
  | mixedMutexes
  deriving DecidableEq, Repr

def Panic.message : Panic → String
  | .unwinding => "step panic"
  | .mixedMutexes => "attempted to use a condition variable with more than one mutex"

/-- What a call comes to. `notHeld` is the answer of an acquisition that gave up. -/
inductive Answer (V : Type)
  | ok
  | notHeld
  | value (v : V)
  | flag (b : Bool)
  | count (n : Nat)
  | tag (s : String)
  | failed (e : TraceError)
  | panicked (p : Panic)

def Answer.ofResult {V : Type} : Except TraceError Unit → Answer V
  | .ok () => .ok
  | .error e => .failed e

/-- Said when a guard ends by itself and its release could not be recorded. -/
def unrecorded (lock : LockName) (e : TraceError) : Notice :=
  ⟨.error, "lock released without a trace record", [("lock", lock.text), ("err", e.message)]⟩

/-- Takes records for emitters. What it does with them is its own affair. -/
class Recorder (R : Type) where
  record : R → EmitterId → Kind → String → LockName → Except TraceError Unit × R

end LockTrace
