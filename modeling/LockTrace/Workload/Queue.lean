import LockTrace.Threads.Script

namespace LockTrace.Queue

def lockName : String := "QueueLock"

/-- How many items are produced. -/
def itemCount : Nat := 10

/-- Items that wait for a consumer, oldest first, and whether more will come. -/
structure Store where
  items : List Nat
  finished : Bool
  deriving DecidableEq, Repr

def Store.push (item : Nat) (s : Store) : Store := { s with items := s.items ++ [item] }

def Store.close (s : Store) : Store := { s with finished := true }

/-- Takes the oldest item out. -/
def Store.pop (s : Store) : Store := { s with items := s.items.drop 1 }

/-- There is nothing to take and more will come. -/
def nothingYet : Condition Store := fun _ s => (s.items.isEmpty && !s.finished, s)

def say (message : String) (fields : List (String × String)) : Notice := ⟨.info, message, fields⟩

/-- Where the producer stands. The number is that of the item on its way. -/
inductive Producer
  | resting (item : Nat)
  | locking (item : Nat)
  | telling (item : Nat)
  | pushing (item : Nat)
  | unlocking (item : Nat)
  | calling (item : Nat)
  | lockingLast
  | closing
  | unlockingLast
  | callingAll
  | tellingEnd
  | ended (result : Except String Unit)

namespace Producer

/-- The next item, or the end behind the last one. -/
def toward (items item : Nat) : Producer := if item < items then .resting item else .lockingLast

/-- Pushes the items one by one, each followed by a call for one consumer, and then closes the
store and calls them all. -/
def action (items : Nat) : Producer → Action Store Producer
  | .resting item => .pause 100 (.locking item)
  | .locking item => .call (.lock .waits 0 0 lockName 0) fun
    | .failed e => .ended (.error e.message)
    | _ => .telling item
  | .telling item => .note (say "pushing" [("item", toString item)]) (.pushing item)
  | .pushing item => .call (.access 0 (Store.push item)) fun _ => .unlocking item
  | .unlocking item => .call (.leave .dropped 0) fun _ => .calling item
  | .calling item => .call (.notifyOne 0) fun _ => toward items (item + 1)
  | .lockingLast => .call (.lock .waits 0 0 lockName 0) fun
    | .failed e => .ended (.error e.message)
    | _ => .closing
  | .closing => .call (.access 0 Store.close) fun _ => .unlockingLast
  | .unlockingLast => .call (.leave .dropped 0) fun _ => .callingAll
  | .callingAll => .call (.notifyAll 0) fun _ => .tellingEnd
  | .tellingEnd => .note (say "producer finished" []) (.ended (.ok ()))
  | .ended r => .stop r

end Producer

/-- Where a consumer stands. -/
inductive Consumer
  | locking
  | waiting
  | looking
  | popping (item : Nat)
  | processing (item : Nat)
  | again
  | leaving
  | tellingEnd
  | failing (reason : String)
  | ended (result : Except String Unit)

namespace Consumer

/-- Waits for an item or the end, takes the oldest item if there is one, and begins again unless
the store is closed and empty. -/
def action (t : ThreadId) : Consumer → Action Store Consumer
  | .locking => .call (.lock .waits 0 0 lockName 0) fun
    | .failed e => .ended (.error e.message)
    | _ => .waiting
  | .waiting => .call (.waitWhile 0 0 nothingYet) fun
    | .failed e => .failing e.message
    | _ => .looking
  | .looking => .call (.access 0 id) fun
    | .value ⟨item :: _, _⟩ => .popping item
    | .value ⟨[], true⟩ => .leaving
    | _ => .again
  | .popping item => .call (.access 0 Store.pop) fun _ => .processing item
  | .processing item =>
    .note (say "processing" [("consumer", toString t), ("item", toString item)]) .again
  | .again => .call (.leave .dropped 0) fun _ => .locking
  | .leaving => .call (.leave .dropped 0) fun _ => .tellingEnd
  | .tellingEnd => .note (say "consumer finished" [("consumer", toString t)]) (.ended (.ok ()))
  | .failing reason => .call (.leave .dropped 0) fun _ => .ended (.error reason)
  | .ended r => .stop r

end Consumer

inductive Place
  | producer (p : Producer)
  | consumer (c : Consumer)

/-- Where the worker of this number begins: number 0 is the producer, all others are consumers. -/
def start (items : Nat) (t : ThreadId) : Place :=
  if t = 0 then .producer (.toward items 0) else .consumer .locking

def script (items : Nat) : Script Store Place := fun t => fun
  | .producer p => (p.action items).map .producer
  | .consumer c => (c.action t).map .consumer

def workerName (t : Nat) : String := if t = 0 then "producer" else s!"consumer.{t}"

def opening (consumers : Nat) : Notice :=
  say "producer/consumer" [("consumers", toString consumers), ("items", toString itemCount)]

end LockTrace.Queue
