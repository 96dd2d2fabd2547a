import LockTrace.Threads.Step
import Mathlib.Tactic.Common

namespace LockTrace.World

variable {V R : Type} (w : World V R)

/-- The thread that holds a mutex. -/
def holder (m : MutexId) : Option ThreadId := (w.mutex m).holder

@[simp] theorem thread_setThread_self (t : ThreadId) (th : Thread V) :
    (w.setThread t th).thread t = th := Table.get_set_self ..

theorem thread_setThread_ne {t t' : ThreadId} (h : t ≠ t') (th : Thread V) :
    (w.setThread t th).thread t' = w.thread t' := Table.get_set_ne _ _ h

theorem mutex_setMutex (m m' : MutexId) (mu : Mutex V) :
    (w.setMutex m mu).mutex m' = if m = m' then mu else w.mutex m' := Table.get_set ..

@[simp] theorem thread_setStage_self (t : ThreadId) (s : Stage V) :
    (w.setStage t s).thread t = { w.thread t with stage := s } := Table.get_set_self ..

theorem thread_setStage_ne {t t' : ThreadId} (h : t ≠ t') (s : Stage V) :
    (w.setStage t s).thread t' = w.thread t' := Table.get_set_ne _ _ h

@[simp] theorem mutex_setStage (t : ThreadId) (s : Stage V) (m : MutexId) :
    (w.setStage t s).mutex m = w.mutex m := rfl

@[simp] theorem thread_setGuards_self (t : ThreadId) (slot : Slot) (gs : List Guard) :
    (w.setGuards t slot gs).thread t =
      { w.thread t with guards := (w.thread t).guards.set slot gs } := Table.get_set_self ..

theorem thread_setGuards_ne {t t' : ThreadId} (h : t ≠ t') (slot : Slot) (gs : List Guard) :
    (w.setGuards t slot gs).thread t' = w.thread t' := Table.get_set_ne _ _ h

@[simp] theorem mutex_setWaiters (c : CondvarId) (ws : List Waiter) (m : MutexId) :
    (w.setWaiters c ws).mutex m = w.mutex m := rfl

theorem holder_take (t : ThreadId) (m m' : MutexId) :
    (w.take t m).holder m' = if m = m' then some t else w.holder m' := by
  rw [holder, take, mutex_setMutex]
  split <;> rfl

theorem holder_free (m m' : MutexId) (unwinding : Bool) :
    (w.free m unwinding).holder m' = if m = m' then none else w.holder m' := by
  rw [holder, free, mutex_setMutex]
  split <;> rfl

/-- A new value changes nothing but the value. -/
theorem holder_setMutex_value (m m' : MutexId) (v : V) :
    (w.setMutex m { w.mutex m with value := v }).holder m' = w.holder m' := by
  rw [holder, mutex_setMutex]
  split
  · rename_i h
    rw [h]
    rfl
  · rfl

theorem tagOf_some {t : ThreadId} {n : Nat} (h : (w.thread t).tag = some n) :
    w.tagOf t = (toString n, w) := by
  simp only [tagOf, h]

theorem tagOf_none {t : ThreadId} (h : (w.thread t).tag = none) :
    w.tagOf t = (toString (w.tags + 1),
      { w.setThread t { w.thread t with tag := some (w.tags + 1) } with tags := w.tags + 1 }) := by
  simp only [tagOf, h]

@[simp] theorem mutex_tagOf (t : ThreadId) (m : MutexId) :
    (w.tagOf t).2.mutex m = w.mutex m := by
  cases h : (w.thread t).tag with
  | some n => rw [tagOf_some w h]
  | none =>
    rw [tagOf_none w h]
    rfl

@[simp] theorem recorder_tagOf (t : ThreadId) : (w.tagOf t).2.recorder = w.recorder := by
  cases h : (w.thread t).tag with
  | some n => rw [tagOf_some w h]
  | none =>
    rw [tagOf_none w h]
    rfl

theorem thread_tagOf_ne {t t' : ThreadId} (h : t ≠ t') :
    (w.tagOf t).2.thread t' = w.thread t' := by
  cases ht : (w.thread t).tag with
  | some n => rw [tagOf_some w ht]
  | none =>
    rw [tagOf_none w ht]
    exact thread_setThread_ne w h _

/-- Handing out a tag leaves the rest of a thread as it is. -/
theorem exists_thread_tagOf (t : ThreadId) :
    ∃ n, (w.tagOf t).1 = toString n ∧
      (w.tagOf t).2.thread t = { w.thread t with tag := some n } := by
  cases h : (w.thread t).tag with
  | some n =>
    refine ⟨n, ?_, ?_⟩
    · rw [tagOf_some w h]
    · rw [tagOf_some w h, ← h]
  | none =>
    refine ⟨w.tags + 1, ?_, ?_⟩
    · rw [tagOf_none w h]
    · rw [tagOf_none w h]
      exact thread_setThread_self w t _

section Emit

variable [Recorder R] (t : ThreadId) (e : EmitterId) (k : Kind) (name : LockName)

@[simp] theorem mutex_emit (m : MutexId) : (w.emit t e k name).2.mutex m = w.mutex m :=
  mutex_tagOf w t m

theorem thread_emit_self : (w.emit t e k name).2.thread t = (w.tagOf t).2.thread t := rfl

theorem emit_eq : ((w.emit t e k name).1, (w.emit t e k name).2.recorder) =
    Recorder.record w.recorder e k (w.tagOf t).1 name := by
  simp [emit]

end Emit

/-- A thread that was woken, or was left alone. -/
def Roused (th th' : Thread V) : Prop :=
  th' = th ∨ ∃ c g resume, th.stage = .parked c g resume ∧
    th' = { th with stage := .rejoining c g resume }

theorem Roused.trans {th₁ th₂ th₃ : Thread V} (h : Roused th₁ th₂) (h' : Roused th₂ th₃) :
    Roused th₁ th₃ := by
  rcases h with rfl | ⟨c, g, resume, hs, rfl⟩
  · exact h'
  · rcases h' with rfl | ⟨_, _, _, hs', _⟩
    · exact .inr ⟨c, g, resume, hs, rfl⟩
    · contradiction

theorem rouseAll_cons (x : Waiter) (xs : List Waiter) :
    (∃ c g resume, (w.thread x.thread).stage = .parked c g resume ∧
      w.rouseAll (x :: xs) = (w.setStage x.thread (.rejoining c g resume)).rouseAll xs) ∨
    w.rouseAll (x :: xs) = w.rouseAll xs := by
  rw [rouseAll]
  split
  · exact .inl ⟨_, _, _, by assumption, rfl⟩
  · exact .inr rfl

theorem thread_rouseAll (xs : List Waiter) (t : ThreadId) :
    Roused (w.thread t) ((w.rouseAll xs).thread t) := by
  induction xs generalizing w with
  | nil => exact .inl rfl
  | cons x xs ih =>
    rcases rouseAll_cons w x xs with ⟨c, g, resume, hs, he⟩ | he
    · rw [he]
      refine Roused.trans ?_ (ih _)
      by_cases ht : x.thread = t
      · subst ht
        exact .inr ⟨c, g, resume, hs, thread_setStage_self ..⟩
      · exact .inl (thread_setStage_ne w ht _)
    · rw [he]
      exact ih w

@[simp] theorem mutex_rouseAll (xs : List Waiter) (m : MutexId) :
    (w.rouseAll xs).mutex m = w.mutex m := by
  induction xs generalizing w with
  | nil => rfl
  | cons x xs ih =>
    rcases rouseAll_cons w x xs with ⟨c, g, resume, _, he⟩ | he
    · rw [he, ih, mutex_setStage]
    · rw [he, ih]

end LockTrace.World
