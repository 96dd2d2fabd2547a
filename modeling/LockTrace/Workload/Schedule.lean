import LockTrace.Threads.Script

namespace LockTrace

/-- A play with a clock. Moves take no time but pauses do: a pausing worker goes on when it is
due. -/
structure Schedule (V R σ : Type) where
  play : Play V R σ
  now : Nat := 0
  due : Table ThreadId Nat := ⟨0, []⟩

namespace Schedule

variable {V R σ : Type} [Recorder R]

/-- How a schedule goes: the script, its workers in the order in which they are served, the number
by which pauses are divided, and how the time is made known to whoever stamps records. -/
structure Plan (V R σ : Type) where
  script : Script V σ
  workers : List ThreadId
  pace : Nat
  stamp : Nat → R → R

/-- The pause that the worker is about to make. -/
def pauseOf (plan : Plan V R σ) (s : Schedule V R σ) (t : ThreadId) : Nat :=
  match (s.play.world.thread t).stage, plan.script t (s.play.places.get t) with
  | .idle, .pause ms _ => ms / plan.pace
  | _, _ => 0

/-- The first worker that is due and can move, moved. -/
def firstMove (plan : Plan V R σ) (s : Schedule V R σ) : List ThreadId → Option (Schedule V R σ)
  | [] => none
  | t :: ts =>
    if s.now < s.due.get t then s.firstMove plan ts
    else match s.play.act plan.script t List.head? with
      | none => s.firstMove plan ts
      | some play => some { s with play, due := s.due.set t (s.now + s.pauseOf plan t) }

/-- The next time at which a pausing worker is due. -/
def nextDue? (plan : Plan V R σ) (s : Schedule V R σ) : Option Nat :=
  (plan.workers.map s.due.get).filter (s.now < ·) |>.min?

/-- Moves workers as long as one can move, and then lets time pass up to the next one that is due.
Ends when nobody will move any more, or at the end of time. -/
def run (plan : Plan V R σ) (endOfTime : Nat) : Nat → Schedule V R σ → Schedule V R σ
  | 0, s => s
  | fuel + 1, s =>
    if endOfTime ≤ s.now then s
    else match s.firstMove plan plan.workers with
      | some s => run plan endOfTime fuel s
      | none =>
        match s.nextDue? plan with
        | none => s
        | some now =>
          let w := s.play.world
          let world := { w with recorder := plan.stamp now w.recorder }
          run plan endOfTime fuel { s with now, play := { s.play with world } }

end Schedule

end LockTrace
