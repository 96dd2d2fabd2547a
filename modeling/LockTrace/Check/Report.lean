import LockTrace.Check.Lifecycle
import LockTrace.Check.Exclusion
import LockTrace.Check.Clock

namespace LockTrace.Check

/-- What a checker says of a stream: nothing wrong, or the first thing that is. -/
def verdict {ε α : Type} (message : ε → String) : Except ε α → String
  | .ok _ => "ok"
  | .error v => message v

def lifecycles (es : List Event) : String := verdict (·.message) (Lifecycle.run es)

def exclusion (es : List Event) : String := verdict (·.message) (Exclusion.run es)

def time (es : List Event) : String := verdict (·.message) (Clock.run es)

/-- How many events of a kind a lock has. -/
def count (es : List Event) (k : Kind) (lock : LockName) : Nat :=
  es.countP fun e => e.kind = k ∧ e.lock = lock

/-- The kinds and locks that occur, each once and with its number of events. -/
def counts (es : List Event) : List (Kind × LockName × Nat) :=
  (es.map fun e => (e.kind, e.lock)).eraseDups.map fun (k, n) => (k, n, count es k n)

end LockTrace.Check
