namespace LockTrace

/-- What a record tells of a thread and a lock. -/
inductive Kind
  | attempt
  | acquired
  | released
  | tryFailed
  | wait
  | woken
  deriving DecidableEq, Repr

namespace Kind

def all : List Kind := [.attempt, .acquired, .released, .tryFailed, .wait, .woken]

/-- The word that stands in a record. -/
def name : Kind → String
  | .attempt => "lock_acquire_attempt"
  | .acquired => "lock_acquired"
  | .released => "lock_released"
  | .tryFailed => "lock_try_failed"
  | .wait => "condvar_wait"
  | .woken => "condvar_woken"

/-- The kind as one capitalised word, as reading errors give it. -/
def title : Kind → String
  | .attempt => "LockAcquireAttempt"
  | .acquired => "LockAcquired"
  | .released => "LockReleased"
  | .tryFailed => "LockTryFailed"
  | .wait => "CondvarWait"
  | .woken => "CondvarWoken"

def ofName? (s : String) : Option Kind := all.find? (·.name = s)

theorem ofName?_name (k : Kind) : ofName? k.name = some k := by
  cases k <;> decide

theorem name_of_ofName? {s : String} {k : Kind} (h : ofName? s = some k) : k.name = s := by
  simpa using List.find?_some h

/-- The holder of the lock comes to hold it by this event. -/
def takes : Kind → Bool
  | .acquired | .woken => true
  | _ => false

/-- The holder of the lock gives it up by this event. -/
def givesUp : Kind → Bool
  | .released | .wait => true
  | _ => false

end Kind

end LockTrace
