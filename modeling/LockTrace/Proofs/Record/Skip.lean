import LockTrace.Proofs.Json.Cut
import LockTrace.Proofs.Json.Phrase
import LockTrace.Record.Reader

namespace LockTrace.Record

open Json (Phrase Piece Scalar Torn Value)

/-- The pieces are passed over as one value, at any depth. -/
def Whole (ps : List Piece) : Prop := ∀ depth rest,
  skipFrom depth (ps ++ rest) = if depth = 0 then some rest else skipFrom depth rest

/-- The pieces are passed over as the rest of a container that is open. -/
def Closing (ps : List Piece) : Prop := ∀ depth rest,
  skipFrom (depth + 1) (ps ++ rest) = if depth = 0 then some rest else skipFrom depth rest

def Skipped (ps : List Piece) : Phrase → Prop
  | .value _ | .item _ | .member _ _ => Whole ps
  | .items _ | .members _ => Closing ps

theorem whole_scalar (x : Scalar) : Whole [.scalar x] := fun _ _ => rfl

theorem closing_end {p : Piece} (hp : p = .arrayEnd ∨ p = .objectEnd) : Closing [p] := by
  intro depth rest
  rcases hp with rfl | rfl
  · cases depth <;> rfl
  · cases depth <;> rfl

theorem Whole.closing {ps qs : List Piece} (h : Whole ps) (t : Closing qs) :
    Closing (ps ++ qs) := by
  intro depth rest
  rw [List.append_assoc, h, if_neg (Nat.succ_ne_zero depth), t]

/-- The pieces of a value are passed over as one value. -/
theorem skipped_pieces {p : Phrase} {ps : List Piece} (h : p.Pieces ps) : Skipped ps p := by
  induction h with
  | plain | text | count | negative => exact whole_scalar _
  | array h ih => exact fun depth rest => ih depth rest
  | object h ih => exact fun depth rest => ih depth rest
  | noItems => exact closing_end (Or.inl rfl)
  | noMembers => exact closing_end (Or.inr rfl)
  | moreItems h t ihv ih => exact ihv.closing ih
  | moreMembers h t ihv ih => exact fun depth rest => ihv.closing ih depth rest

theorem skip_whole {ps : List Piece} (h : Whole ps) (rest : List Piece) :
    skip (ps ++ rest) = some rest := h 0 rest

theorem skipFrom_append {depth : Nat} {ps rest : List Piece} (h : skipFrom depth ps = some rest)
    (more : List Piece) : skipFrom depth (ps ++ more) = some (rest ++ more) := by
  fun_induction skipFrom depth ps with
  | case5 depth ps hd ih | case7 depth ps hd ih =>
    rw [List.cons_append, skipFrom, if_neg hd]
    exact ih h
  | _ => simp_all [skipFrom]

/-- If one more piece is needed for a value to end, nothing is left behind it. -/
theorem skipFrom_snoc {depth : Nat} {ps rest : List Piece} {p : Piece}
    (h : skipFrom depth ps = none) (hp : skipFrom depth (ps ++ [p]) = some rest) : rest = [] := by
  fun_induction skipFrom depth ps with
  | case1 => cases p <;> simp_all [skipFrom]
  | case5 depth ps hd ih | case7 depth ps hd ih =>
    rw [List.cons_append, skipFrom, if_neg hd] at hp
    exact ih h hp
  | _ => simp_all [skipFrom]

/-- Of a value that was torn nothing is left to read. -/
theorem skip_torn {ps qs : List Piece} (h : Whole ps) (ht : Torn ps qs) :
    skip qs = none ∨ skip qs = some [] := by
  obtain ⟨front, back, x, hb, rfl, rfl⟩ := ht
  have hn : skip front = none := by
    cases hs : skip front with
    | none => rfl
    | some rest =>
      have hw := h 0 []
      rw [List.append_nil] at hw
      have ha := skipFrom_append hs back
      rw [hw] at ha
      simp [hb] at ha
  cases x with
  | none =>
    left
    simpa using hn
  | some x =>
    cases hs : skip (front ++ [.scalar x]) with
    | none => exact Or.inl hs
    | some rest =>
      obtain rfl := skipFrom_snoc hn hs
      exact Or.inr hs

end LockTrace.Record
