import LockTrace.Sink.Writer

namespace LockTrace

/-- The ways in which an output can misbehave. -/
inductive Flaw
  | none
  | failWrite
  | failFlush
  | zero
  | cut
  | short
  deriving DecidableEq, Repr

/-- An output with a flaw that shows from some flush on and a limited number of times, or for ever
where no limit is given. `size` is how much it takes where that matters. -/
structure Faulty where
  flaw : Flaw
  after : Nat := 0
  times : Option Nat := .none
  size : Nat := 0
  error : IoError
  done : Nat := 0
  deriving DecidableEq, Repr

namespace Faulty

/-- Whether the next call shows the flaw. -/
def failing (f : Faulty) : Bool := f.after ≤ f.done && f.times ≠ some 0

/-- One of the limited times is used up. -/
def spend (f : Faulty) : Faulty := { f with times := f.times.map (· - 1) }

/-- A write call that reports the error. An interruption is no report: the call is made again at
once, until its times are used up and all is taken. -/
def refuse (f : Faulty) (count : Nat) : WriteOutcome × Faulty :=
  if f.error.kind = .interrupted ∧ f.times.isSome then
    (.accepted count, { f with times := some 0 })
  else (.failed f.error, f.spend)

/-- A write call: a failing one reports the error, takes nothing, or takes a part once before the
error is reported. -/
def write (f : Faulty) (count : Nat) : WriteOutcome × Faulty :=
  match f.flaw with
  | .none | .failFlush => (.accepted count, f)
  | .short => (.accepted (min (max f.size 1) count), f)
  | .failWrite => if f.failing then f.refuse count else (.accepted count, f)
  | .zero => if f.failing then (.accepted 0, f.spend) else (.accepted count, f)
  | .cut =>
    if f.failing then
      if f.size = 0 then f.refuse count
      else (.accepted (min f.size count), { f with size := 0 })
    else (.accepted count, f)

/-- A flush call; the successful ones are counted. -/
def flush (f : Faulty) : Except IoError Unit × Faulty :=
  if f.flaw = .failFlush ∧ f.failing then (.error f.error, f.spend)
  else (.ok (), { f with done := f.done + 1 })

instance : Writer Faulty := ⟨write, flush⟩

end Faulty

end LockTrace
