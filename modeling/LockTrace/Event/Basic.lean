import LockTrace.Event.Kind

namespace LockTrace

/-- The label of a lock. A record without a label would say nothing, so there is no empty one. -/
structure LockName where
  text : String
  nonempty : text ≠ ""
  deriving DecidableEq, Repr

def LockName.ofString? (s : String) : Option LockName :=
  if h : s = "" then none else some ⟨s, h⟩

/-- What is said of an empty label. -/
def emptyLockMessage : String := "lock must be non-empty"

/-- Process time in milliseconds. -/
structure Millis where
  count : UInt64
  deriving DecidableEq, Repr

def Millis.text (t : Millis) : String := toString t.count.toNat ++ "ms"

/-- One record of the stream: what a thread did to a lock, and when. -/
structure Event where
  kind : Kind
  time : Millis
  tid : String
  lock : LockName
  deriving DecidableEq, Repr

theorem LockName.ofString?_text (n : LockName) : LockName.ofString? n.text = some n := by
  simp [LockName.ofString?, n.nonempty]

theorem LockName.ofString?_eq_none {s : String} : LockName.ofString? s = none ↔ s = "" := by
  by_cases h : s = "" <;> simp [LockName.ofString?, h]

end LockTrace
