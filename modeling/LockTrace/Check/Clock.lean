import LockTrace.Event.Basic

namespace LockTrace.Clock

/-- Two neighbouring records whose times run backwards; the index is that of the later one. -/
structure Violation where
  index : Nat
  later : Millis
  earlier : Millis
  deriving DecidableEq, Repr

def Violation.message (v : Violation) : String :=
  s!"record {v.index}: time {v.later.text} is before {v.earlier.text}"

/-- Compares each event with the one before it, counting from `i`. -/
def runFrom (i : Nat) (before : Event) : List Event → Except Violation Unit
  | [] => .ok ()
  | e :: es =>
    if e.time.count < before.time.count then .error ⟨i, e.time, before.time⟩
    else runFrom (i + 1) e es

/-- Succeeds if time never runs backwards along the stream. -/
def run : List Event → Except Violation Unit
  | [] => .ok ()
  | e :: es => runFrom 1 e es

end LockTrace.Clock
