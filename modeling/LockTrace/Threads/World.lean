import LockTrace.Threads.Basic

namespace LockTrace

/-- What a wait goes on with: the condition and the values it was shown, or nothing if the wait
ends with the first wake-up. -/
abbrev Resume (V : Type) := Option (Condition V × List V)

/-- Where a thread stands inside a call. Each stage but the first two and `parked` names the one
thing that the thread does next. -/
inductive Stage (V : Type)
  | idle
  | finished (a : Answer V)
  | emitting (e : EmitterId) (kind : Kind) (name : LockName)
  | attempting (patience : Patience) (g : Guard) (slot : Slot)
  | acquiring (patience : Patience) (g : Guard) (slot : Slot)
  | recording (g : Guard) (slot : Slot)
  | yielding (g : Guard) (e : TraceError)
  | refusing (g : Guard)
  | leaving (how : Leave) (g : Guard)
  | freeing (how : Leave) (g : Guard) (result : Except TraceError Unit)
  | accessing (g : Guard) (change : V → V)
  | judging (c : CondvarId) (g : Guard) (condition : Condition V) (seen : List V)
  | waiting (c : CondvarId) (g : Guard) (resume : Resume V)
  | parking (c : CondvarId) (g : Guard) (resume : Resume V)
  | parked (c : CondvarId) (g : Guard) (resume : Resume V)
  | rejoining (c : CondvarId) (g : Guard) (resume : Resume V)
  | waking (c : CondvarId) (g : Guard) (resume : Resume V)
  | notifying (c : CondvarId) (all : Bool)
  | tagging

/-- A thread: its stage, the guards it keeps, and its tag once it has asked for one. The guards of
one slot stand in the order in which they came. -/
structure Thread (V : Type) where
  stage : Stage V := .idle
  guards : Table Slot (List Guard) := ⟨[], []⟩
  tag : Option Nat := none

/-- A thread asleep on a condition variable, and the mutex it gave up for that. -/
structure Waiter where
  thread : ThreadId
  mutex : MutexId
  deriving DecidableEq, Repr

/-- Everything that threads share. The waiters of a condition variable stand in the order in which
they fell asleep. -/
structure World (V R : Type) where
  mutexes : Table MutexId (Mutex V)
  condvars : Table CondvarId (List Waiter) := ⟨[], []⟩
  threads : Table ThreadId (Thread V) := ⟨{}, []⟩
  tags : Nat := 0
  recorder : R
  notices : List Notice := []

namespace World

variable {V R : Type}

def thread (w : World V R) (t : ThreadId) : Thread V := w.threads.get t

def mutex (w : World V R) (m : MutexId) : Mutex V := w.mutexes.get m

def setThread (w : World V R) (t : ThreadId) (th : Thread V) : World V R :=
  { w with threads := w.threads.set t th }

def setMutex (w : World V R) (m : MutexId) (mu : Mutex V) : World V R :=
  { w with mutexes := w.mutexes.set m mu }

def setStage (w : World V R) (t : ThreadId) (s : Stage V) : World V R :=
  w.setThread t { w.thread t with stage := s }

def finish (w : World V R) (t : ThreadId) (a : Answer V) : World V R := w.setStage t (.finished a)

/-- The guards that a thread keeps in a slot, the oldest first. -/
def guards (w : World V R) (t : ThreadId) (slot : Slot) : List Guard :=
  (w.thread t).guards.get slot

def setGuards (w : World V R) (t : ThreadId) (slot : Slot) (gs : List Guard) : World V R :=
  let th := w.thread t
  w.setThread t { th with guards := th.guards.set slot gs }

/-- The guard that a slot stands for: the oldest one in it. -/
def guard? (w : World V R) (t : ThreadId) (slot : Slot) : Option Guard := (w.guards t slot).head?

/-- The tag of a thread. It is handed out when it is first asked for, counting from one. -/
def tagOf (w : World V R) (t : ThreadId) : String × World V R :=
  let th := w.thread t
  match th.tag with
  | some n => (toString n, w)
  | none =>
    let n := w.tags + 1
    (toString n, { w.setThread t { th with tag := some n } with tags := n })

/-- Records an event of the thread. -/
def emit [Recorder R] (w : World V R) (t : ThreadId) (e : EmitterId) (k : Kind) (name : LockName) :
    Except TraceError Unit × World V R :=
  let (tid, w) := w.tagOf t
  let (result, recorder) := Recorder.record w.recorder e k tid name
  (result, { w with recorder })

/-- The thread becomes the holder of the mutex. -/
def take (w : World V R) (t : ThreadId) (m : MutexId) : World V R :=
  w.setMutex m { w.mutex m with holder := some t }

/-- The mutex is let go. A holder that unwinds leaves it poisoned if it is of that sort. -/
def free (w : World V R) (m : MutexId) (unwinding : Bool) : World V R :=
  let mu := w.mutex m
  w.setMutex m { mu with holder := none, poisoned := mu.poisoned || (unwinding && mu.poisons) }

def note (w : World V R) (n : Notice) : World V R := { w with notices := w.notices ++ [n] }

def waiters (w : World V R) (c : CondvarId) : List Waiter := w.condvars.get c

def setWaiters (w : World V R) (c : CondvarId) (ws : List Waiter) : World V R :=
  { w with condvars := w.condvars.set c ws }

end World

end LockTrace
