import LockTrace.Event.Basic

namespace LockTrace

/-- Labels and tags stand in the order of their code points, which is that of their bytes. -/
def textLe (a b : String) : Bool := decide (¬ b < a)

def LockName.le (a b : LockName) : Bool := textLe a.text b.text

def Millis.le (a b : Millis) : Bool := decide (a.count ≤ b.count)

/-- A list in ascending order; equal elements keep their places. -/
def ascending {α : Type} (le : α → α → Bool) (xs : List α) : List α := xs.mergeSort le

def distinctCount {α : Type} [BEq α] (xs : List α) : Nat := xs.eraseDups.length

end LockTrace
