import LockTrace.Data.Table
import LockTrace.Event.Basic

namespace LockTrace.Exclusion

/-- The thread that holds each lock according to the records so far. -/
abbrev Holders := Table LockName (Option String)

def start : Holders := ⟨none, []⟩

/-- The first record that contradicts those before it. -/
inductive Violation
  | alreadyHeld (index : Nat) (event : Event) (holder : String)
  | notHeld (index : Nat) (event : Event)
  deriving DecidableEq, Repr

def Violation.message : Violation → String
  | .alreadyHeld i e holder =>
    s!"record {i}: thread {e.tid} acquired {e.lock.text} while thread {holder} holds it"
  | .notHeld i e => s!"record {i}: thread {e.tid} gave up {e.lock.text} without holding it"

/-- Takes the events in order, counting from `i`. Attempts and their failures change nothing. -/
def runFrom (i : Nat) (holders : Holders) : List Event → Except Violation Holders
  | [] => .ok holders
  | e :: es =>
    if e.kind.takes then
      match holders.get e.lock with
      | some holder => .error (.alreadyHeld i e holder)
      | none => runFrom (i + 1) (holders.set e.lock (some e.tid)) es
    else if e.kind.givesUp then
      if holders.get e.lock = some e.tid then runFrom (i + 1) (holders.set e.lock none) es
      else .error (.notHeld i e)
    else runFrom (i + 1) holders es

/-- The holders that a stream ends with, if no record contradicts those before it. -/
def run (es : List Event) : Except Violation Holders := runFrom 0 start es

end LockTrace.Exclusion
