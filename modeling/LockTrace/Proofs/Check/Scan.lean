import Mathlib.Order.Bounds.Defs
import Mathlib.Tactic.Common

namespace LockTrace.Check

/-- A checker that takes events one by one, counts them, and stops at the first that does not fit
what it has seen before. -/
structure Scans {σ α ε : Type} (step : Nat → σ → α → Except ε σ)
    (run : Nat → σ → List α → Except ε σ) : Prop where
  nil : ∀ i s, run i s [] = .ok s
  cons : ∀ i s a as, run i s (a :: as) = (step i s a).bind fun s' => run (i + 1) s' as

namespace Scans

variable {σ α ε : Type} {step : Nat → σ → α → Except ε σ}
  {run : Nat → σ → List α → Except ε σ}

theorem append (h : Scans step run) (i : Nat) (s : σ) (as bs : List α) :
    run i s (as ++ bs) = (run i s as).bind fun s' => run (i + as.length) s' bs := by
  induction as generalizing i s with
  | nil =>
    rw [h.nil]
    rfl
  | cons a as ih =>
    rw [List.cons_append, h.cons, h.cons, List.length_cons, Nat.add_comm as.length 1,
      ← Nat.add_assoc]
    cases step i s a with
    | error v => rfl
    | ok s' => exact ih (i + 1) s'

theorem exists_of_cons (h : Scans step run) {i : Nat} {s s' : σ} {a : α} {as : List α}
    (hr : run i s (a :: as) = .ok s') : ∃ s₁, step i s a = .ok s₁ ∧
      run (i + 1) s₁ as = .ok s' := by
  rw [h.cons] at hr
  cases ha : step i s a with
  | error v =>
    rw [ha] at hr
    contradiction
  | ok s₁ =>
    rw [ha] at hr
    exact ⟨s₁, rfl, hr⟩

/-- What was accepted of more events is accepted of fewer. -/
theorem exists_of_append (h : Scans step run) {i : Nat} {s s' : σ} {as bs : List α}
    (hr : run i s (as ++ bs) = .ok s') : ∃ s₁, run i s as = .ok s₁ ∧
      run (i + as.length) s₁ bs = .ok s' := by
  rw [h.append] at hr
  cases ha : run i s as with
  | error v =>
    rw [ha] at hr
    contradiction
  | ok s₁ =>
    rw [ha] at hr
    exact ⟨s₁, rfl, hr⟩

theorem exists_of_concat (h : Scans step run) {i : Nat} {s s' : σ} {as : List α} {a : α}
    (hr : run i s (as ++ [a]) = .ok s') : ∃ s₁, run i s as = .ok s₁ ∧
      step (i + as.length) s₁ a = .ok s' := by
  obtain ⟨s₁, has, ha⟩ := h.exists_of_append hr
  obtain ⟨s₂, hstep, hnil⟩ := h.exists_of_cons ha
  rw [h.nil] at hnil
  cases hnil
  exact ⟨s₁, has, hstep⟩

/-- An error comes from one event, and nothing before it was refused. -/
theorem exists_of_error (h : Scans step run) {i : Nat} {s : σ} {as : List α} {v : ε}
    (hr : run i s as = .error v) : ∃ pre a post s₁, as = pre ++ a :: post ∧
      run i s pre = .ok s₁ ∧ step (i + pre.length) s₁ a = .error v := by
  induction as generalizing i s with
  | nil =>
    rw [h.nil] at hr
    contradiction
  | cons a as ih =>
    rw [h.cons] at hr
    cases hs : step i s a with
    | error v' =>
      rw [hs] at hr
      cases hr
      exact ⟨[], a, as, s, rfl, h.nil i s, hs⟩
    | ok s' =>
      rw [hs] at hr
      obtain ⟨pre, b, post, s₁, rfl, hpre, hb⟩ := ih hr
      refine ⟨a :: pre, b, post, s₁, rfl, ?_, ?_⟩
      · rw [h.cons, hs]
        exact hpre
      · rw [List.length_cons, Nat.add_comm pre.length 1, ← Nat.add_assoc]
        exact hb

/-- The event that is refused is the first that completes what is not accepted. -/
theorem isLeast_of_error (h : Scans step run) {s : σ} {P : List α → Prop}
    (hP : ∀ as, (∃ s', run 0 s as = .ok s') ↔ P as) {as : List α} {v : ε}
    (hr : run 0 s as = .error v) : ∃ pre a post s₁, as = pre ++ a :: post ∧
      run 0 s pre = .ok s₁ ∧ step pre.length s₁ a = .error v ∧
      IsLeast {i | ¬ P (as.take (i + 1))} pre.length := by
  obtain ⟨pre, a, post, s₁, rfl, hpre, ha⟩ := h.exists_of_error hr
  rw [Nat.zero_add] at ha
  refine ⟨pre, a, post, s₁, rfl, hpre, ha, fun hacc => ?_, fun i hi => ?_⟩
  · have htake : (pre ++ a :: post).take (pre.length + 1) = pre ++ [a] := by
      rw [List.take_length_add_append]
      rfl
    obtain ⟨s', hs'⟩ := (hP _).mpr hacc
    rw [htake] at hs'
    obtain ⟨s₂, hpre', ha'⟩ := h.exists_of_concat hs'
    rw [hpre] at hpre'
    cases hpre'
    rw [Nat.zero_add, ha] at ha'
    contradiction
  · by_contra hlt
    have htake : (pre ++ a :: post).take (i + 1) = pre.take (i + 1) :=
      List.take_append_of_le_length (by omega)
    have hsome : ∃ s', run 0 s (pre.take (i + 1)) = .ok s' := by
      rw [← List.take_append_drop (i + 1) pre] at hpre
      obtain ⟨s', hs', _⟩ := h.exists_of_append hpre
      exact ⟨s', hs'⟩
    refine hi ?_
    rw [htake]
    exact (hP _).mp hsome

end Scans

end LockTrace.Check
