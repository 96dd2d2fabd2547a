import LockTrace.Threads.Step

namespace LockTrace

/-- The next thing that a worker does, and where it stands afterwards: a call, a pause of some
milliseconds, a notice, the arrival at a meeting point, the wait there for all parties, or the
end with a result. -/
inductive Action (V σ : Type)
  | call (c : Call V) (next : Answer V → σ)
  | pause (ms : Nat) (next : σ)
  | note (n : Notice) (next : σ)
  | arrive (next : σ)
  | meet (parties : Nat) (next : σ)
  | stop (result : Except String Unit)

/-- The same action between other places. -/
def Action.map {V σ τ : Type} (f : σ → τ) : Action V σ → Action V τ
  | .call c next => .call c fun a => f (next a)
  | .pause ms next => .pause ms (f next)
  | .note n next => .note n (f next)
  | .arrive next => .arrive (f next)
  | .meet parties next => .meet parties (f next)
  | .stop result => .stop result

/-- What each worker does next, by where it stands. -/
abbrev Script (V σ : Type) := ThreadId → σ → Action V σ

/-- Workers on their way through a script, with the world that they share, the number of arrivals
at the meeting point, and the results of those that have ended, in order. -/
structure Play (V R σ : Type) where
  world : World V R
  places : Table ThreadId σ
  arrivals : Nat := 0
  ended : List (ThreadId × Except String Unit) := []

namespace Play

variable {V R σ : Type}

def move (p : Play V R σ) (t : ThreadId) (s : σ) : Play V R σ :=
  { p with places := p.places.set t s }

def hasEnded (p : Play V R σ) (t : ThreadId) : Bool := p.ended.any (·.1 = t)

/-- One move of one worker: inside a call what the call does next, otherwise the next action of
its script. A worker that has ended does nothing more. -/
def act [Recorder R] (script : Script V σ) (p : Play V R σ) (t : ThreadId)
    (pick : List Waiter → Option Waiter) : Option (Play V R σ) :=
  match p.world.collect t, script t (p.places.get t) with
  | some (a, w), .call _ next => some { p.move t (next a) with world := w }
  | some _, _ => none
  | none, action =>
    match (p.world.thread t).stage, action with
    | .idle, .call c _ => (p.world.begin t c).map fun w => { p with world := w }
    | .idle, .pause _ next => some (p.move t next)
    | .idle, .note n next => some { p.move t next with world := p.world.note n }
    | .idle, .arrive next => some { p.move t next with arrivals := p.arrivals + 1 }
    | .idle, .meet parties next => if parties ≤ p.arrivals then some (p.move t next) else none
    | .idle, .stop result =>
      if p.hasEnded t then none else some { p with ended := p.ended ++ [(t, result)] }
    | _, _ => (p.world.advance t pick).map fun w => { p with world := w }

/-- Any worker may make the next move, and sleepers may wake without being called. -/
inductive Move [Recorder R] (script : Script V σ) (workers : List ThreadId) :
    Play V R σ → Play V R σ → Prop
  | act {p p' : Play V R σ} (t : ThreadId) (ht : t ∈ workers)
      (pick : List Waiter → Option Waiter) (h : p.act script t pick = some p') :
      Move script workers p p'
  | rouse {p : Play V R σ} {w : World V R} (t : ThreadId) (h : p.world.rouse t = some w) :
      Move script workers p { p with world := w }

end Play

end LockTrace
