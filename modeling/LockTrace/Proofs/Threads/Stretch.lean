import LockTrace.Proofs.Threads.Annals

namespace LockTrace

variable {V R : Type}

/-- A record that a thread has tried to make for a guard, and what came of it. -/
structure Telling where
  kind : Kind
  guard : Guard
  result : Except TraceError Unit
  deriving DecidableEq

namespace World

variable {w w' w₁ : World V R} {t : ThreadId} {m : MutexId}

/-- Whoever was neither asleep nor is woken is left alone. -/
theorem eq_of_roused {th th' : Thread V} (h : Roused th th')
    (hs : ∀ c g resume, th.stage ≠ .parked c g resume) : th' = th := by
  rcases h with he | ⟨c, g, resume, hp, -⟩
  · exact he
  · exact absurd hp (hs c g resume)

/-- From one world to another the mutexes that threads but this one have, before or after, stay
as they are. -/
def Spares (t : ThreadId) (w w' : World V R) : Prop := ∀ m t', t' ≠ t →
  w.holder m = some t' ∨ w'.holder m = some t' → w'.mutex m = w.mutex m

namespace Spares

theorem of_mutex (h : ∀ m, w'.mutex m = w.mutex m) : Spares t w w' := by
  intro m t' _ _
  exact h m

/-- A mutex that nobody else has is changed, and afterwards nobody else has it. -/
theorem setMutex {mu : Mutex V} (hw : ∀ t', t' ≠ t → w.holder m ≠ some t')
    (hm : ∀ t', t' ≠ t → mu.holder ≠ some t') : Spares t w (w.setMutex m mu) := by
  intro m' t' ht hh
  by_cases he : m = m'
  · subst he
    rw [holder, holder, mutex_setMutex, if_pos rfl] at hh
    rcases hh with hh | hh
    · exact absurd hh (hw t' ht)
    · exact absurd hh (hm t' ht)
  · rw [mutex_setMutex, if_neg he]

theorem congr (h : Spares t w w₁) (he : ∀ m, w'.mutex m = w₁.mutex m) : Spares t w w' := by
  intro m t' ht hh
  rw [he m]
  apply h m t' ht
  rw [holder, holder, he m] at hh
  exact hh

end Spares

section Step

variable {xs : List (ThreadId × Guard × Feat V)} {s : Stage V}

/-- Whoever works with a guard has its mutex, but for the time of a sleep. -/
theorem Stands.holder_of_works (h : w.Stands xs) (hs : (w.thread t).stage = s) {g : Guard}
    (hg : s.works = some g) (hl : s.view.lent = []) : w.holder g.mutex = some t := by
  have hself := h.grasp_at hs
  apply hself.holds g
  · exact List.mem_append_left _ (hself.works g hg)
  · simp [hl]

variable [Recorder R]

/-- A thread inside a call changes no mutex that another thread has. -/
theorem Stands.spares (h : w.Stands xs) (hs : (w.thread t).stage = s) (hw : w.Step t s w') :
    Spares t w w' := by
  have hself := h.grasp_at hs
  have emitted {e : EmitterId} {k : Kind} {name : LockName} {r : Except TraceError Unit}
      {w₁ : World V R} (he : w.emit t e k name = (r, w₁)) : Spares t w w₁ := by
    obtain rfl : (w.emit t e k name).2 = w₁ := by rw [he]
    apply Spares.of_mutex
    simp
  have others_of_holds {m : MutexId} (hm : w.holder m = some t) :
      ∀ t', t' ≠ t → w.holder m ≠ some t' := by
    intro t' ht
    simp [hm, Ne.symm ht]
  have carried {g : Guard} (hc : s.view.carried = [g]) (hl : s.view.lent = []) :
      w.holder g.mutex = some t := by
    apply hself.holds g
    · simp [hc]
    · simp [hl]
  have valued {g : Guard} (hg : s.works = some g) (hl : s.view.lent = []) (v : V) :
      Spares t w (w.setMutex g.mutex { w.mutex g.mutex with value := v }) := by
    have hm := h.holder_of_works hs hg hl
    exact .setMutex (others_of_holds hm) (others_of_holds hm)
  have taken {g : Guard} (hf : w.holder g.mutex = none) : Spares t w (w.take t g.mutex) := by
    apply Spares.setMutex
    · simp [hf]
    · intro t' ht
      simp [Ne.symm ht]
  have freed {g : Guard} (hm : w.holder g.mutex = some t) (unwinding : Bool) :
      Spares t w (w.free g.mutex unwinding) := by
    apply Spares.setMutex (others_of_holds hm)
    simp
  cases hw with
  | emitted he | attempted he | unattempted he | recorded he | unrecorded he | refused he
  | unrefused he | left he | slept he | unslept he | woke he | resumed he | unwoken he =>
    exact (emitted he).congr fun m => mutex_setStage ..
  | occupied | mixed | notifiedNobody =>
    apply Spares.of_mutex
    simp [finish]
  | poisoned hf | acquired hf | rejoined hf => exact (taken hf).congr fun m => mutex_setStage ..
  | yielded => exact (freed (carried rfl rfl) false).congr fun m => mutex_setStage ..
  | @freed how g r =>
    apply (freed (carried rfl rfl) (how = .unwound)).congr
    obtain ⟨a, said, -, hc⟩ := closing_eq (w.free g.mutex (how = .unwound)) t how g r
    intro m
    rw [hc]
    exact mutex_setStage ..
  | accessed | again | enough => exact (valued rfl rfl _).congr fun m => mutex_setStage ..
  | parked =>
    exact (freed (h.holder_of_works hs rfl rfl) false).congr fun m => mutex_setStage ..
  | notifiedAll | notifiedOne =>
    apply Spares.of_mutex
    simp [finish]
  | tagged =>
    apply Spares.of_mutex
    simp [finish]

end Step

theorem mutex_begin {call : Call V} (hb : w.begin t call = some w') (m : MutexId) :
    w'.mutex m = w.mutex m := by
  unfold begin at hb
  split at hb
  · obtain ⟨s, -, rfl⟩ := Option.map_eq_some_iff.mp hb
    cases call <;> exact mutex_setStage ..
  · contradiction

theorem mutex_rouse (hr : w.rouse t = some w') (m : MutexId) : w'.mutex m = w.mutex m := by
  unfold rouse at hr
  split at hr
  · cases hr
    simp
  · contradiction

theorem mutex_collect {a : Answer V} (hc : w.collect t = some (a, w')) (m : MutexId) :
    w'.mutex m = w.mutex m := by
  unfold collect at hc
  split at hc
  · cases hc
    exact mutex_setStage ..
  · contradiction

variable [Recorder R] {drift : R → R → Prop}

/-- What can happen around a thread that is inside a call: others do whatever they like, the thread
is woken if it is asleep, or the recorder drifts by itself. -/
inductive Around (drift : R → R → Prop) (t : ThreadId) (w : World V R) : World V R → Prop
  | begin {w' : World V R} {t' : ThreadId} (ht : t' ≠ t) (call : Call V)
      (h : w.begin t' call = some w') : Around drift t w w'
  | advance {w' : World V R} {t' : ThreadId} (ht : t' ≠ t) (pick : List Waiter → Option Waiter)
      (h : w.advance t' pick = some w') : Around drift t w w'
  | rouse {w' : World V R} (t' : ThreadId) (h : w.rouse t' = some w') : Around drift t w w'
  | collect {w' : World V R} {t' : ThreadId} (ht : t' ≠ t) (a : Answer V)
      (h : w.collect t' = some (a, w')) : Around drift t w w'
  | drift (r : R) (h : drift w.recorder r) : Around drift t w { w with recorder := r }

/-- What happens around a thread wakes it at most, and leaves the mutexes that the thread has as
they are. -/
structure Spared (t : ThreadId) (w w' : World V R) : Prop where
  thread : Roused (w.thread t) (w'.thread t)
  mutex : ∀ m, w.holder m = some t ∨ w'.holder m = some t → w'.mutex m = w.mutex m

omit [Recorder R] in
theorem Spared.holder_iff (h : Spared t w w') (m : MutexId) :
    w'.holder m = some t ↔ w.holder m = some t := by
  constructor
  · intro hm
    rw [holder, ← h.mutex m (.inr hm)]
    exact hm
  · intro hm
    rw [holder, h.mutex m (.inl hm)]
    exact hm

theorem Stands.spared {xs : List (ThreadId × Guard × Feat V)} (h : w.Stands xs)
    (ha : Around drift t w w') : Spared t w w' := by
  cases ha with
  | begin ht call hb => exact ⟨.inl (thread_begin_ne hb (Ne.symm ht)), fun m _ => mutex_begin hb m⟩
  | advance ht pick ha =>
    have hstep := step_of_advance ha
    refine ⟨hstep.others (Ne.symm ht), ?_⟩
    intro m hm
    exact h.spares rfl hstep m t (Ne.symm ht) hm
  | rouse t' hr => exact ⟨roused_of_rouse hr t, fun m _ => mutex_rouse hr m⟩
  | collect ht a hc =>
    exact ⟨.inl (thread_collect_ne hc (Ne.symm ht)), fun m _ => mutex_collect hc m⟩
  | drift r _ => exact ⟨.inl rfl, fun m _ => rfl⟩

theorem Around.exists_annals {w₀ : World V R} {hist : List (ThreadId × Guard × Feat V)}
    (h : Annals drift w₀ hist w) (ha : Around drift t w w') :
    ∃ hist', Annals drift w₀ hist' w' := by
  cases ha with
  | begin _ call hb => exact ⟨_, h.begin _ call hb⟩
  | advance _ pick ha => exact ⟨_, h.advance _ pick ha⟩
  | rouse t' hr => exact ⟨_, h.rouse t' hr⟩
  | collect _ a hc => exact ⟨_, h.collect _ a hc⟩
  | drift r hd => exact ⟨_, h.drift r hd⟩

end World

/-- One move on the way from one world to another, and whether it is the watched thread's own. -/
structure Moment (V R : Type) where
  own : Bool
  before : World V R
  after : World V R

/-- The record that the watched thread tries to make by its own move. -/
def Moment.tells [Recorder R] (t : ThreadId) (x : Moment V R) : Option Telling :=
  if x.own then (x.before.thread t).stage.utters.map fun (k, g) =>
    ⟨k, g, (x.before.emit t g.emitter k g.name).1⟩
  else none

/-- All records that the watched thread has tried to make. -/
def told [Recorder R] (t : ThreadId) (xs : List (Moment V R)) : List Telling :=
  xs.filterMap (·.tells t)

theorem told_concat [Recorder R] (t : ThreadId) (xs : List (Moment V R)) (x : Moment V R) :
    told t (xs ++ [x]) = told t xs ++ (x.tells t).toList := filterMap_concat ..

namespace World

variable [Recorder R] {drift : R → R → Prop} {w₀ w₁ w w' : World V R} {t : ThreadId}
  {hist : List (ThreadId × Guard × Feat V)} {xs : List (Moment V R)}

/-- The moments from a world on, in which one thread is inside a call, and what happens around it
meanwhile. -/
inductive Stretch (drift : R → R → Prop) (t : ThreadId) (w₁ : World V R) :
    List (Moment V R) → World V R → Prop
  | start : Stretch drift t w₁ [] w₁
  | own {xs : List (Moment V R)} {w w' : World V R} (pick : List Waiter → Option Waiter)
      (h : Stretch drift t w₁ xs w) (ha : w.advance t pick = some w') :
      Stretch drift t w₁ (xs ++ [⟨true, w, w'⟩]) w'
  | beside {xs : List (Moment V R)} {w w' : World V R} (h : Stretch drift t w₁ xs w)
      (ha : Around drift t w w') : Stretch drift t w₁ (xs ++ [⟨false, w, w'⟩]) w'

theorem Stretch.exists_annals (h : Annals drift w₀ hist w₁) (hs : Stretch drift t w₁ xs w) :
    ∃ hist', Annals drift w₀ hist' w := by
  induction hs with
  | start => exact ⟨hist, h⟩
  | own pick _ ha ih =>
    obtain ⟨hist', h'⟩ := ih
    exact ⟨_, h'.advance t pick ha⟩
  | beside _ ha ih =>
    obtain ⟨hist', h'⟩ := ih
    exact ha.exists_annals h'

/-- What holds at the beginning of a stretch, and is kept by each move of the thread and by all that
happens around it, holds throughout. -/
theorem Stretch.invariant {P : List (Moment V R) → World V R → Prop} (h₀ : w₀.Fresh)
    (h : Annals drift w₀ hist w₁) (start : P [] w₁)
    (own : ∀ {xs w w' hist'}, w.Stands hist' → P xs w → w.Step t (w.thread t).stage w' →
      P (xs ++ [⟨true, w, w'⟩]) w')
    (beside : ∀ {xs w w'}, Spared t w w' → P xs w → P (xs ++ [⟨false, w, w'⟩]) w')
    (hs : Stretch drift t w₁ xs w) : P xs w := by
  induction hs with
  | start => exact start
  | own pick hs ha ih =>
    obtain ⟨hist', h'⟩ := hs.exists_annals h
    exact own (h'.stands h₀) ih (step_of_advance ha)
  | beside hs ha ih =>
    obtain ⟨hist', h'⟩ := hs.exists_annals h
    exact beside ((h'.stands h₀).spared ha) ih

/-- Whoever has an answer rests. -/
theorem Stretch.rests {a : Answer V} (h₀ : w₀.Fresh) (h : Annals drift w₀ hist w₁)
    (ha : (w₁.thread t).stage = .finished a) (hs : Stretch drift t w₁ xs w) :
    w.thread t = w₁.thread t ∧ (∀ m, w.holder m = some t ↔ w₁.holder m = some t) ∧
      ∀ x ∈ xs, x.own = false := by
  refine Stretch.invariant (P := fun xs w => w.thread t = w₁.thread t ∧
    (∀ m, w.holder m = some t ↔ w₁.holder m = some t) ∧ ∀ x ∈ xs, x.own = false) h₀ h ?_ ?_ ?_ hs
  · simp
  · rintro xs w w' hist' - ⟨ht, -, -⟩ hstep
    rw [ht, ha] at hstep
    contradiction
  · rintro xs w w' hspared ⟨ht, hh, hx⟩
    refine ⟨?_, ?_, ?_⟩
    · rw [← ht]
      apply eq_of_roused hspared.thread
      simp [ht, ha]
    · intro m
      rw [hspared.holder_iff, hh]
    · simpa [or_imp, forall_and] using hx

theorem tells_own {k : Kind} {g : Guard} {r : Except TraceError Unit}
    (hu : (w.thread t).stage.utters = some (k, g)) (he : w.emit t g.emitter k g.name = (r, w₁)) :
    (⟨true, w, w'⟩ : Moment V R).tells t = some ⟨k, g, r⟩ := by
  simp [Moment.tells, hu, he]

theorem tells_own_none (hu : (w.thread t).stage.utters = none) :
    (⟨true, w, w'⟩ : Moment V R).tells t = none := by
  simp [Moment.tells, hu]

theorem tells_beside : (⟨false, w, w'⟩ : Moment V R).tells t = none := by
  simp [Moment.tells]

theorem told_own {k : Kind} {g : Guard} {r : Except TraceError Unit}
    (hu : (w.thread t).stage.utters = some (k, g)) (he : w.emit t g.emitter k g.name = (r, w₁)) :
    told t (xs ++ [⟨true, w, w'⟩]) = told t xs ++ [⟨k, g, r⟩] := by
  rw [told_concat, tells_own hu he, Option.toList_some]

theorem told_own_none (hu : (w.thread t).stage.utters = none) :
    told t (xs ++ [⟨true, w, w'⟩]) = told t xs := by
  simp [told_concat, tells_own_none hu]

theorem told_beside : told t (xs ++ [⟨false, w, w'⟩]) = told t xs := by
  simp [told_concat, tells_beside]

/-- What comes of a happening in a stretch. The watched thread does nothing there but go on. -/
def meets? (w : World V R) (t t' : ThreadId) : Happening V → Option (Moment V R)
  | .advance => (w.advance t' List.head?).map fun w' => ⟨t' = t, w, w'⟩
  | .rouse => (w.rouse t').map fun w' => ⟨false, w, w'⟩
  | .begin call => if t' = t then none else (w.begin t' call).map fun w' => ⟨false, w, w'⟩
  | .collect => if t' = t then none else (w.collect t').map fun r => ⟨false, w, r.2⟩

/-- Computes a stretch. -/
def attend? (t : ThreadId) (xs : List (Moment V R)) (w : World V R) :
    List (ThreadId × Happening V) → Option (List (Moment V R) × World V R)
  | [] => some (xs, w)
  | (t', y) :: ys => (w.meets? t t' y).bind fun x => attend? t (xs ++ [x]) x.after ys

theorem Stretch.meet {t' : ThreadId} {y : Happening V} {x : Moment V R}
    (h : Stretch drift t w₁ xs w) (hx : w.meets? t t' y = some x) :
    Stretch drift t w₁ (xs ++ [x]) x.after := by
  cases y with
  | begin call =>
    simp only [meets?] at hx
    split at hx
    · contradiction
    · rename_i ht
      obtain ⟨_, hb, rfl⟩ := Option.map_eq_some_iff.mp hx
      exact h.beside (.begin ht call hb)
  | advance =>
    obtain ⟨_, ha, rfl⟩ := Option.map_eq_some_iff.mp hx
    by_cases ht : t' = t
    · subst ht
      simpa using h.own _ ha
    · simpa [ht] using h.beside (.advance ht _ ha)
  | rouse =>
    obtain ⟨_, hr, rfl⟩ := Option.map_eq_some_iff.mp hx
    exact h.beside (.rouse t' hr)
  | collect =>
    simp only [meets?] at hx
    split at hx
    · contradiction
    · rename_i ht
      obtain ⟨⟨a, _⟩, hc, rfl⟩ := Option.map_eq_some_iff.mp hx
      exact h.beside (.collect ht a hc)

/-- What is computed is a stretch. -/
theorem Stretch.attend {xs' : List (Moment V R)} {ys : List (ThreadId × Happening V)}
    (h : Stretch drift t w₁ xs w) (hy : w.attend? t xs ys = some (xs', w')) :
    Stretch drift t w₁ xs' w' := by
  induction ys generalizing xs w with
  | nil =>
    cases hy
    exact h
  | cons y ys ih =>
    obtain ⟨x, hx, hy⟩ := Option.bind_eq_some_iff.mp hy
    exact ih (h.meet hx) hy

end World

end LockTrace
