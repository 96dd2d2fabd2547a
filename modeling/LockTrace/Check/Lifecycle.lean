import LockTrace.Data.Table
import LockTrace.Event.Basic

namespace LockTrace

/-- Where one thread stands with one lock. -/
inductive Phase
  | idle
  | attempting
  | held
  | waiting
  deriving DecidableEq, Repr

namespace Phase

def title : Phase → String
  | .idle => "Idle"
  | .attempting => "Attempting"
  | .held => "Held"
  | .waiting => "Waiting"

/-- The allowed moves: an attempt is answered by holding or by failure, a holder may wait and wake
any number of times, and a release ends the round. -/
def next? : Phase → Kind → Option Phase
  | .idle, .attempt => some .attempting
  | .attempting, .acquired => some .held
  | .attempting, .tryFailed => some .idle
  | .held, .wait => some .waiting
  | .waiting, .woken => some .held
  | .held, .released => some .idle
  | _, _ => none

end Phase

namespace Lifecycle

/-- The phase of every thread with every lock. -/
abbrev Phases := Table (String × LockName) Phase

def start : Phases := ⟨.idle, []⟩

/-- The first record that is not allowed, and the phase it came in. -/
structure Violation where
  index : Nat
  event : Event
  phase : Phase
  deriving DecidableEq, Repr

def Violation.message (v : Violation) : String :=
  s!"record {v.index}: thread {v.event.tid} lock {v.event.lock.text}: " ++
    s!"{v.event.kind.name} not allowed in state {v.phase.title}"

/-- Takes the events in order, counting from `i`. -/
def runFrom (i : Nat) (phases : Phases) : List Event → Except Violation Phases
  | [] => .ok phases
  | e :: es =>
    let phase := phases.get (e.tid, e.lock)
    match phase.next? e.kind with
    | none => .error ⟨i, e, phase⟩
    | some p => runFrom (i + 1) (phases.set (e.tid, e.lock) p) es

/-- The phases that a stream ends in, if each of its records is allowed where it stands. -/
def run (es : List Event) : Except Violation Phases := runFrom 0 start es

end Lifecycle

end LockTrace
