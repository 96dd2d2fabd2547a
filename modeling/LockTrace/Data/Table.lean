namespace LockTrace

/-- A total map that has one value almost everywhere and keeps the others in the order in which
their keys were first written. -/
structure Table (κ α : Type) where
  rest : α
  entries : List (κ × α) := []

namespace Table

variable {κ α : Type} [DecidableEq κ]

def find? (k : κ) : List (κ × α) → Option α
  | [] => none
  | (k', a) :: es => if k' = k then some a else find? k es

def put (k : κ) (a : α) : List (κ × α) → List (κ × α)
  | [] => [(k, a)]
  | (k', a') :: es => if k' = k then (k, a) :: es else (k', a') :: put k a es

def get (t : Table κ α) (k : κ) : α := (find? k t.entries).getD t.rest

def set (t : Table κ α) (k : κ) (a : α) : Table κ α := { t with entries := put k a t.entries }

theorem find?_put (k k' : κ) (a : α) (es : List (κ × α)) :
    find? k' (put k a es) = if k = k' then some a else find? k' es := by
  induction es with
  | nil => simp [put, find?]
  | cons e es ih =>
    obtain ⟨k₀, a₀⟩ := e
    by_cases h : k₀ = k
    · subst h
      by_cases h' : k₀ = k' <;> simp [put, find?, h']
    · by_cases h' : k₀ = k'
      · subst h'
        simp [put, find?, h, Ne.symm h]
      · simp [put, find?, h, h', ih]

theorem get_set (t : Table κ α) (k k' : κ) (a : α) :
    (t.set k a).get k' = if k = k' then a else t.get k' := by
  by_cases h : k = k' <;> simp [get, set, find?_put, h]

@[simp] theorem get_set_self (t : Table κ α) (k : κ) (a : α) : (t.set k a).get k = a := by
  simp [get_set]

theorem get_set_ne (t : Table κ α) {k k' : κ} (a : α) (h : k ≠ k') :
    (t.set k a).get k' = t.get k' := by
  simp [get_set, h]

theorem put_put (k : κ) (a b : α) (es : List (κ × α)) : put k b (put k a es) = put k b es := by
  induction es with
  | nil => simp [put]
  | cons e es ih => by_cases h : e.1 = k <;> simp [put, h, ih]

@[simp] theorem set_set (t : Table κ α) (k : κ) (a b : α) : (t.set k a).set k b = t.set k b := by
  simp [set, put_put]

@[simp] theorem get_empty (a : α) (k : κ) : (Table.mk a []).get k = a := rfl

end Table

end LockTrace
