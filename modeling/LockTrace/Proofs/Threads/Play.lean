import LockTrace.Proofs.Threads.Poison
import LockTrace.Proofs.Threads.Stream
import LockTrace.Threads.Script

namespace LockTrace

namespace World

variable {V R : Type} {w w' : World V R} {t : ThreadId}

/-- A change of the world that the other threads do not feel. -/
structure Near (t : ThreadId) (w w' : World V R) : Prop where
  thread : ∀ t' ≠ t, w'.thread t' = w.thread t'
  waiters : ∀ c, w'.waiters c = w.waiters c

namespace Near

theorem refl : w.Near t w := ⟨fun _ _ => rfl, fun _ => rfl⟩

theorem setStage (h : w.Near t w') (s : Stage V) : w.Near t (w'.setStage t s) where
  thread t' ht := by
    rw [thread_setStage_ne w' (Ne.symm ht)]
    exact h.thread t' ht
  waiters := h.waiters

theorem setGuards (h : w.Near t w') (slot : Slot) (gs : List Guard) :
    w.Near t (w'.setGuards t slot gs) where
  thread t' ht := by
    rw [thread_setGuards_ne w' (Ne.symm ht)]
    exact h.thread t' ht
  waiters := h.waiters

theorem setMutex (h : w.Near t w') (m : MutexId) (mu : Mutex V) : w.Near t (w'.setMutex m mu) :=
  ⟨h.thread, h.waiters⟩

end Near

theorem mutex_take_self (w : World V R) (t : ThreadId) (m : MutexId) :
    (w.take t m).mutex m = { w.mutex m with holder := some t } := by
  rw [take, mutex_setMutex, if_pos rfl]

theorem mutex_free_self (w : World V R) (m : MutexId) (unwinding : Bool) :
    (w.free m unwinding).mutex m = { w.mutex m with
      holder := none, poisoned := (w.mutex m).poisoned || (unwinding && (w.mutex m).poisons) } := by
  rw [free, mutex_setMutex, if_pos rfl]

theorem waiters_setWaiters_self (w : World V R) (c : CondvarId) (ws : List Waiter) :
    (w.setWaiters c ws).waiters c = ws := Table.get_set_self ..

@[simp] theorem waiters_rouseAll (w : World V R) (xs : List Waiter) (c : CondvarId) :
    (w.rouseAll xs).waiters c = w.waiters c := by
  induction xs generalizing w with
  | nil => rfl
  | cons x xs ih =>
    rcases rouseAll_cons w x xs with ⟨_, _, _, _, he⟩ | he
    · rw [he, ih]
      rfl
    · rw [he, ih]

theorem thread_rouseAll_of_notMem {xs : List Waiter} (h : ∀ x ∈ xs, x.thread ≠ t) :
    (w.rouseAll xs).thread t = w.thread t := by
  induction xs generalizing w with
  | nil => rfl
  | cons x xs ih =>
    obtain ⟨hx, hxs⟩ := List.forall_mem_cons.mp h
    rcases rouseAll_cons w x xs with ⟨_, _, _, _, he⟩ | he
    · rw [he, ih hxs, thread_setStage_ne w hx]
    · rw [he, ih hxs]

/-- A sleeper that is called has to get its mutex back. -/
theorem thread_rouseAll_of_mem {xs : List Waiter} (h : ∃ x ∈ xs, x.thread = t) {c : CondvarId}
    {g : Guard} {resume : Resume V} (hs : (w.thread t).stage = .parked c g resume) :
    (w.rouseAll xs).thread t = { w.thread t with stage := .rejoining c g resume } := by
  induction xs generalizing w with
  | nil => simp at h
  | cons x xs ih =>
    by_cases hx : x.thread = t
    · have he : w.rouseAll (x :: xs) = (w.setStage t (.rejoining c g resume)).rouseAll xs := by
        rw [rouseAll, hx, hs]
      have hawake : Roused ((w.setStage t (.rejoining c g resume)).thread t)
          (((w.setStage t (.rejoining c g resume)).rouseAll xs).thread t) := thread_rouseAll ..
      rw [thread_setStage_self] at hawake
      rcases hawake with hawake | ⟨_, _, _, hs', _⟩
      · rw [he, hawake]
      · contradiction
    · have hxs : ∃ x ∈ xs, x.thread = t := by simpa [hx] using h
      rcases rouseAll_cons w x xs with ⟨c', g', resume', _, he⟩ | he
      · have ht := thread_setStage_ne w hx (.rejoining c' g' resume')
        rw [he, ih hxs (by rw [ht]; exact hs), ht]
      · rw [he, ih hxs hs]

end World

/-- What is recorded through the emitter is never lost, as long as the recorder has the property. -/
def Recorder.Keeps {R : Type} [Recorder R] (e : EmitterId) (P : R → Prop) : Prop :=
  ∀ r k tid lock, P r →
    ∃ r', Recorder.record r e k tid lock = (.ok (), r') ∧ P r'

theorem World.exists_emit {V R : Type} [Recorder R] {e : EmitterId} {P : R → Prop}
    (h : Recorder.Keeps e P) {w : World V R} (hw : P w.recorder) (t : ThreadId) (k : Kind)
    (name : LockName) :
    ∃ w₁, w.emit t e k name = (.ok (), w₁) ∧ w.Near t w₁ ∧ (∀ m, w₁.mutex m = w.mutex m) ∧
      (w₁.thread t).guards = (w.thread t).guards ∧ P w₁.recorder := by
  obtain ⟨r, hr, hP⟩ := h w.recorder k (w.tagOf t).1 name hw
  have he := w.emit_eq t e k name
  rw [hr] at he
  obtain ⟨hok, hrec⟩ := Prod.mk.inj he
  refine ⟨(w.emit t e k name).2, Prod.ext hok rfl, ⟨fun t' ht => ?_, fun c => ?_⟩,
    fun m => mutex_emit .., ?_, by rwa [hrec]⟩
  · exact thread_tagOf_ne w (Ne.symm ht)
  · change (w.tagOf t).2.waiters c = w.waiters c
    cases ht : (w.thread t).tag with
    | some n => rw [tagOf_some w ht]
    | none =>
      rw [tagOf_none w ht]
      rfl
  · obtain ⟨n, _, hn⟩ := w.exists_thread_tagOf t
    rw [thread_emit_self, hn]

/-- The place to which an action leads, which is no call, has the property. -/
def Action.Leads {V σ : Type} (P : σ → Prop) : Action V σ → Prop
  | .call .. => False
  | .pause _ next | .note _ next | .arrive next | .meet _ next => P next
  | .stop _ => True

namespace Play

variable {V R σ : Type} [Recorder R] {script : Script V σ} {p p' : Play V R σ} {t : ThreadId}
  {pick : List Waiter → Option Waiter} {c : Call V} {next : Answer V → σ}

theorem act_begin (hs : (p.world.thread t).stage = .idle)
    (hc : script t (p.places.get t) = .call c next) :
    p.act script t pick = (p.world.begin t c).map fun w => { p with world := w } := by
  simp [act, World.collect, hs, hc]

theorem act_collect {a : Answer V} (hs : (p.world.thread t).stage = .finished a)
    (hc : script t (p.places.get t) = .call c next) :
    p.act script t pick = some { p.move t (next a) with world := p.world.setStage t .idle } := by
  simp [act, World.collect, hs, hc]

theorem act_advance (hi : (p.world.thread t).stage ≠ .idle)
    (hf : ∀ a, (p.world.thread t).stage ≠ .finished a) :
    p.act script t pick = (p.world.advance t pick).map fun w => { p with world := w } := by
  unfold act World.collect
  cases hs : (p.world.thread t).stage with
  | idle => exact absurd hs hi
  | finished a => exact absurd hs (hf a)
  | emitting | attempting | acquiring | recording | yielding | refusing | leaving | freeing
  | accessing | judging | waiting | parking | parked | rejoining | waking | notifying
  | tagging => rfl

end Play

end LockTrace
