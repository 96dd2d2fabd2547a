import LockTrace.Proofs.Threads.Acts

namespace LockTrace

open Function (update update_self update_of_ne)

variable {V R σ : Type}

/-- How far a worker is with its call, as far as the others feel it: the effect lies ahead, or the
worker is on its way to sleep, sleeps, was woken and has to get its mutex back, or is done. -/
inductive Progress (V : Type)
  | ahead
  | dozing
  | parked (c : CondvarId)
  | roused
  | done (a : Answer V)

namespace Progress

/-- Whoever sleeps on the condition variable is woken. -/
def rouse (c : CondvarId) : Progress V → Progress V
  | .parked c' => if c' = c then .roused else .parked c'
  | s => s

theorem rouse_of_ne {c : CondvarId} {pr : Progress V} (h : pr ≠ .parked c) : pr.rouse c = pr := by
  cases pr with
  | parked c' =>
    refine if_neg fun hc => h ?_
    rw [hc]
  | ahead | dozing | roused | done => rfl

/-- Whoever still sleeps does so on another condition variable. -/
theorem of_rouse_eq_parked {c c' : CondvarId} {pr : Progress V} (h : pr.rouse c = .parked c') :
    pr = .parked c' ∧ c' ≠ c := by
  by_cases hp : pr = .parked c
  · rw [hp, rouse, if_pos rfl] at h
    contradiction
  · rw [rouse_of_ne hp] at h
    refine ⟨h, fun hc => hp ?_⟩
    rw [h, hc]

end Progress

def Stage.progress : Stage V → Progress V
  | .finished a => .done a
  | .recording .. => .done .ok
  | .waiting .. | .parking .. => .dozing
  | .parked c _ _ => .parked c
  | .rejoining .. => .roused
  | _ => .ahead

theorem Stage.eq_parked {s : Stage V} {c : CondvarId} (h : s.progress = .parked c) :
    ∃ g resume, s = .parked c g resume := by
  cases s
  all_goals cases h
  exact ⟨_, _, rfl⟩

/-- What matters of a play to its workers: where each of them stands and how far it is with its
call, what the mutexes protect and who holds them, and what happened outside the calls. -/
structure Plot (V σ : Type) where
  place : ThreadId → σ
  progress : ThreadId → Progress V
  value : MutexId → V
  holder : MutexId → Option ThreadId
  arrivals : Nat
  ended : List (ThreadId × Except String Unit)
  notices : List Notice

namespace World

def progress (w : World V R) (t : ThreadId) : Progress V := (w.thread t).stage.progress

def value (w : World V R) (m : MutexId) : V := (w.mutex m).value

variable {w : World V R}

@[simp] theorem progress_setStage (t : ThreadId) (s : Stage V) :
    (w.setStage t s).progress = update w.progress t s.progress := by
  funext t'
  by_cases ht : t' = t
  · subst ht
    rw [update_self, progress, thread_setStage_self]
  · rw [update_of_ne ht, progress, thread_setStage_ne w (Ne.symm ht)]
    rfl

@[simp] theorem value_setStage (t : ThreadId) (s : Stage V) :
    (w.setStage t s).value = w.value := rfl

@[simp] theorem holder_setStage (t : ThreadId) (s : Stage V) :
    (w.setStage t s).holder = w.holder := rfl

@[simp] theorem notices_setStage (t : ThreadId) (s : Stage V) :
    (w.setStage t s).notices = w.notices := rfl

@[simp] theorem progress_setGuards (t : ThreadId) (slot : Slot) (gs : List Guard) :
    (w.setGuards t slot gs).progress = w.progress := by
  funext t'
  by_cases ht : t' = t
  · subst ht
    rw [progress, thread_setGuards_self]
    rfl
  · rw [progress, thread_setGuards_ne w (Ne.symm ht)]
    rfl

@[simp] theorem value_take (t : ThreadId) (m : MutexId) : (w.take t m).value = w.value := by
  funext m'
  rw [value, take, mutex_setMutex]
  split
  · rename_i hm
    subst hm
    rfl
  · rfl

@[simp] theorem holder_take_eq (t : ThreadId) (m : MutexId) :
    (w.take t m).holder = update w.holder m (some t) := by
  funext m'
  rw [holder_take]
  by_cases hm : m' = m
  · rw [hm, update_self, if_pos rfl]
  · rw [update_of_ne hm, if_neg (Ne.symm hm)]

@[simp] theorem value_free (m : MutexId) (unwinding : Bool) :
    (w.free m unwinding).value = w.value := by
  funext m'
  rw [value, free, mutex_setMutex]
  split
  · rename_i hm
    subst hm
    rfl
  · rfl

@[simp] theorem holder_free_eq (m : MutexId) (unwinding : Bool) :
    (w.free m unwinding).holder = update w.holder m none := by
  funext m'
  rw [holder_free]
  by_cases hm : m' = m
  · rw [hm, update_self, if_pos rfl]
  · rw [update_of_ne hm, if_neg (Ne.symm hm)]

@[simp] theorem value_setMutex (m : MutexId) (v : V) :
    (w.setMutex m { w.mutex m with value := v }).value = update w.value m v := by
  funext m'
  rw [value, mutex_setMutex]
  by_cases hm : m' = m
  · rw [hm, update_self, if_pos rfl]
  · rw [update_of_ne hm, if_neg (Ne.symm hm)]
    rfl

@[simp] theorem holder_setMutex_eq (m : MutexId) (v : V) :
    (w.setMutex m { w.mutex m with value := v }).holder = w.holder := by
  funext m'
  exact holder_setMutex_value w m m' v

/-- A change of the world that nobody feels. -/
structure Mute (w w' : World V R) : Prop where
  progress : w'.progress = w.progress
  value : w'.value = w.value
  holder : w'.holder = w.holder
  notices : w'.notices = w.notices

theorem Mute.refl (w : World V R) : w.Mute w := ⟨rfl, rfl, rfl, rfl⟩

theorem Mute.setGuards {w₁ : World V R} (h : w.Mute w₁) (t : ThreadId) (slot : Slot)
    (gs : List Guard) : w.Mute (w₁.setGuards t slot gs) :=
  ⟨(progress_setGuards ..).trans h.progress, h.value, h.holder, h.notices⟩

theorem Mute.keep {w₁ : World V R} (h : w.Mute w₁) (t : ThreadId) (g : Guard) (slot : Slot) :
    w.Mute (w₁.keep t g slot) := h.setGuards ..

theorem Mute.emit [Recorder R] {t : ThreadId} {e : EmitterId} {k : Kind} {name : LockName}
    {r : Except TraceError Unit} {w₁ : World V R} (he : w.emit t e k name = (r, w₁)) :
    w.Mute w₁ := by
  obtain rfl : (w.emit t e k name).2 = w₁ := by rw [he]
  refine ⟨?_, ?_, ?_, ?_⟩
  · funext t'
    by_cases ht : t' = t
    · subst ht
      obtain ⟨n, _, hn⟩ := exists_thread_tagOf w t'
      rw [World.progress, thread_emit_self, hn]
      rfl
    · exact congrArg (fun th => th.stage.progress) (thread_tagOf_ne w (Ne.symm ht))
  · funext m
    rw [World.value, mutex_emit]
    rfl
  · funext m
    rw [World.holder, mutex_emit]
    rfl
  · change (w.tagOf t).2.notices = w.notices
    cases h : (w.thread t).tag with
    | some n => rw [tagOf_some w h]
    | none =>
      rw [tagOf_none w h]
      rfl

@[simp] theorem value_rouseAll (xs : List Waiter) : (w.rouseAll xs).value = w.value := by
  funext m
  rw [value, mutex_rouseAll]
  rfl

@[simp] theorem holder_rouseAll (xs : List Waiter) : (w.rouseAll xs).holder = w.holder := by
  funext m
  rw [holder, mutex_rouseAll]
  rfl

@[simp] theorem notices_rouseAll (xs : List Waiter) : (w.rouseAll xs).notices = w.notices := by
  induction xs generalizing w with
  | nil => rfl
  | cons x xs ih =>
    rcases rouseAll_cons w x xs with ⟨_, _, _, _, he⟩ | he
    · rw [he, ih]
      rfl
    · rw [he, ih]

theorem Rows.progress_callAll (h : w.Rows) (c : CondvarId) :
    ((w.setWaiters c []).rouseAll (w.waiters c)).progress = fun t => (w.progress t).rouse c := by
  funext t
  rw [progress, h.thread_call fun _ hx => hx]
  split
  · rename_i hcalled
    obtain ⟨x, hx, rfl⟩ := hcalled
    obtain ⟨g, resume, hs, _⟩ := (h.mem c x).mp hx
    rw [progress, hs]
    exact (if_pos rfl).symm
  · rename_i hcalled
    refine (Progress.rouse_of_ne fun hp => hcalled ?_).symm
    obtain ⟨g, resume, hs⟩ := Stage.eq_parked hp
    exact ⟨⟨t, g.mutex⟩, (h.mem c _).mpr ⟨g, resume, hs, rfl⟩, rfl⟩

theorem Rows.progress_callOne (h : w.Rows) {c : CondvarId} {ws : List Waiter} {x : Waiter}
    (hx : x ∈ w.waiters c) : w.progress x.thread = .parked c ∧
      ((w.setWaiters c ws).rouseAll [x]).progress = update w.progress x.thread .roused := by
  obtain ⟨g, resume, hs, _⟩ := (h.mem c x).mp hx
  refine ⟨by rw [progress, hs]; rfl, funext fun t => ?_⟩
  rw [progress, h.thread_call fun _ hy => List.mem_singleton.mp hy ▸ hx]
  by_cases ht : t = x.thread
  · subst ht
    rw [if_pos ⟨x, List.mem_singleton_self x, rfl⟩, update_self, hs]
    rfl
  · rw [if_neg, update_of_ne ht]
    · rfl
    · rintro ⟨y, hy, rfl⟩
      exact ht (congrArg Waiter.thread (List.mem_singleton.mp hy))

end World

namespace Play

def plot (p : Play V R σ) : Plot V σ :=
  ⟨p.places.get, p.world.progress, p.world.value, p.world.holder, p.arrivals, p.ended,
    p.world.notices⟩

variable {p : Play V R σ} {w : World V R}

/-- A worker goes on to another stage with an effect. -/
theorem plot_effect {progress : ThreadId → Progress V} {value : MutexId → V}
    {holder : MutexId → Option ThreadId} (hp : w.progress = progress) (hv : w.value = value)
    (hh : w.holder = holder) (hn : w.notices = p.world.notices) (t : ThreadId) (st : Stage V) :
    ({ p with world := w.setStage t st } : Play V R σ).plot =
      { p.plot with progress := update progress t st.progress, value, holder } := by
  rw [plot, World.progress_setStage, hp, World.value_setStage, hv, World.holder_setStage, hh,
    World.notices_setStage, hn]
  rfl

/-- A worker goes on to another stage without any effect. -/
theorem plot_restage (h : p.world.Mute w) {t : ThreadId} {st : Stage V}
    (hst : st.progress = p.world.progress t) :
    ({ p with world := w.setStage t st } : Play V R σ).plot = p.plot := by
  rw [plot_effect h.progress h.value h.holder h.notices, hst, Function.update_eq_self]
  rfl

end Play

end LockTrace
