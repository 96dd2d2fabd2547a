import LockTrace.Proofs.Threads.Run

namespace LockTrace

/-- The mutex is not poisoned and no panic will poison it. -/
structure Mutex.Immune {V : Type} (mu : Mutex V) : Prop where
  poisons : mu.poisons = false
  poisoned : mu.poisoned = false

/-- A property of a mutex that lasts whoever takes it or lets it go and whatever it protects. -/
structure Mutex.Lasting {V : Type} (P : Mutex V → Prop) : Prop where
  take : ∀ mu t, P mu → P { mu with holder := some t }
  free : ∀ mu (unwinding : Bool), P mu →
    P { mu with holder := none, poisoned := mu.poisoned || (unwinding && mu.poisons) }
  value : ∀ mu v, P mu → P { mu with value := v }

theorem Mutex.lasting_immune {V : Type} : Mutex.Lasting (V := V) Mutex.Immune where
  take _ _ h := ⟨h.poisons, h.poisoned⟩
  free mu unwinding h := by
    refine ⟨h.poisons, ?_⟩
    change (mu.poisoned || (unwinding && mu.poisons)) = false
    rw [h.poisoned, h.poisons, Bool.and_false, Bool.or_false]
  value _ _ h := ⟨h.poisons, h.poisoned⟩

theorem Mutex.lasting_poisons {V : Type} : Mutex.Lasting (V := V) (·.poisons = true) where
  take _ _ h := h
  free _ _ h := h
  value _ _ h := h

namespace World

variable {V R : Type} {w w' : World V R} {t : ThreadId} {m : MutexId}

/-- Each mutex has the property. -/
def Every (P : Mutex V → Prop) (w : World V R) : Prop := ∀ m, P (w.mutex m)

namespace Every

variable {P : Mutex V → Prop}

theorem of_mutex (h : w.Every P) (he : ∀ m, w'.mutex m = w.mutex m) : w'.Every P := fun m => by
  rw [he m]
  exact h m

theorem setMutex (h : w.Every P) {mu : Mutex V} (hm : P mu) : (w.setMutex m mu).Every P := by
  intro m'
  rw [mutex_setMutex]
  split
  · exact hm
  · exact h m'

theorem step [Recorder R] (hP : Mutex.Lasting P) (h : w.Every P) {s : Stage V}
    (hs : w.Step t s w') : w'.Every P := by
  have stage {w₁ : World V R} (h₁ : w₁.Every P) (s : Stage V) : (w₁.setStage t s).Every P :=
    h₁.of_mutex fun _ => rfl
  have emitted {e : EmitterId} {k : Kind} {name : LockName} {r : Except TraceError Unit}
      {w₁ : World V R} (he : w.emit t e k name = (r, w₁)) : w₁.Every P := by
    obtain rfl : (w.emit t e k name).2 = w₁ := by rw [he]
    exact h.of_mutex (mutex_emit w t e k name)
  have roused (c : CondvarId) (ws xs : List Waiter) :
      ((w.setWaiters c ws).rouseAll xs).Every P := h.of_mutex fun m => by simp
  have take (m : MutexId) : (w.take t m).Every P := h.setMutex (hP.take _ t (h m))
  have free (m : MutexId) (unwinding : Bool) : (w.free m unwinding).Every P :=
    h.setMutex (hP.free _ unwinding (h m))
  cases hs with
  | emitted he | attempted he | unattempted he | unrecorded he | refused he | unrefused he
  | left he | slept he | unslept he | woke he | resumed he | unwoken he =>
    exact stage (emitted he) _
  | recorded he => exact (emitted he).of_mutex fun _ => rfl
  | occupied | mixed | notifiedNobody => exact stage h _
  | poisoned | acquired | rejoined => exact stage (take _) _
  | yielded => exact stage (free _ false) _
  | @freed how g r =>
    refine (free g.mutex (how = .unwound)).of_mutex fun m => ?_
    cases how <;> cases r <;> rfl
  | accessed | again | enough => exact stage (h.setMutex (hP.value _ _ (h _))) _
  | @parked c g resume => exact (free g.mutex false).of_mutex fun _ => rfl
  | notifiedAll | notifiedOne => exact stage (roused _ _ _) _
  | tagged => exact stage (h.of_mutex (mutex_tagOf w t)) _

theorem begin (h : w.Every P) {call : Call V} (hb : w.begin t call = some w') : w'.Every P := by
  unfold World.begin at hb
  split at hb
  · obtain ⟨s, _, rfl⟩ := Option.map_eq_some_iff.mp hb
    cases call
    all_goals exact h.of_mutex fun m => rfl
  · contradiction

theorem rouse (h : w.Every P) (hr : w.rouse t = some w') : w'.Every P := by
  unfold World.rouse at hr
  split at hr
  · cases hr
    exact h.of_mutex fun m => by simp
  · contradiction

theorem collect (h : w.Every P) {a : Answer V} (hc : w.collect t = some (a, w')) :
    w'.Every P := by
  unfold World.collect at hc
  split at hc
  · cases hc
    exact h.of_mutex fun m => rfl
  · contradiction

end Every

/-- No mutex can be poisoned. -/
def Immune (w : World V R) : Prop := ∀ m, (w.mutex m).Immune

theorem Immune.deed?_ne_balked [Recorder R] (h : w.Immune) {pick : List Waiter → Option Waiter}
    (ha : w.advance t pick = some w') (t' : ThreadId) (name : LockName) :
    w.deed? t w' ≠ some (.balked t' name) := by
  intro hd
  unfold deed? at hd
  split at hd
  · cases hd
  · cases hd
  · split at hd
    · rename_i p g slot _ _ hs hs'
      have hstep := step_of_advance ha
      rw [hs] at hstep
      cases hstep with
      | occupied => simp at hs'
      | poisoned _ hp =>
        rw [(h g.mutex).poisoned] at hp
        contradiction
      | acquired => simp at hs'
    · cases hd
    · cases hd

variable [Recorder R] {allowed : Call V → Prop} {drift : R → R → Prop} {w₀ : World V R}
  {ds : List Deed}

/-- What lasts of every mutex lasts through a run. -/
theorem Run.every {P : Mutex V → Prop} (hP : Mutex.Lasting P) (h₀ : w₀.Every P)
    (h : Run allowed drift w₀ ds w) : w.Every P := by
  induction h with
  | start => exact h₀
  | begin t call _ _ hb ih => exact ih.begin hb
  | advance t pick _ ha ih => exact ih.step hP (step_of_advance ha)
  | rouse t _ hr ih => exact ih.rouse hr
  | collect t a _ hc ih => exact ih.collect hc
  | drift r _ _ ih => exact ih.of_mutex fun _ => rfl

/-- Where no mutex can be poisoned no thread fails on one that is. -/
theorem Run.not_balked (h₀ : w₀.Immune) (h : Run allowed drift w₀ ds w) (t : ThreadId)
    (name : LockName) : .balked t name ∉ ds := by
  induction h with
  | start => exact List.not_mem_nil
  | begin t call _ _ _ ih | rouse t _ _ ih | collect t a _ _ ih | drift r _ _ ih => exact ih
  | advance t' pick hrun ha ih =>
    have himmune := hrun.every Mutex.lasting_immune h₀
    intro hm
    rcases List.mem_append.mp hm with hm | hm
    · exact ih hm
    · exact Immune.deed?_ne_balked himmune ha t name (Option.mem_toList.mp hm)

end World

/-- The stage is none of those of a wait. -/
def Stage.Awake {V : Type} : Stage V → Prop
  | .judging .. | .waiting .. | .parking .. | .parked .. | .rejoining .. | .waking .. => False
  | _ => True

namespace World

variable {V R : Type} {w w' : World V R} {t : ThreadId}

theorem awake_roused {th th' : Thread V} (h : Roused th th') (ha : th.stage.Awake) :
    th'.stage.Awake := by
  rcases h with rfl | ⟨c, g, resume, hs, _⟩
  · exact ha
  · rw [hs] at ha
    exact ha.elim

theorem awake_begin (hp : w.Every (·.poisons = true)) {call : Call V}
    (hb : w.begin t call = some w') : (w'.thread t).stage.Awake := by
  unfold begin at hb
  split at hb
  · obtain ⟨s, hs, rfl⟩ := Option.map_eq_some_iff.mp hb
    have hawake : s.Awake := by
      cases call with
      | emit e k label | lock p e m label slot =>
        cases hs
        split <;> trivial
      | leave how slot | access slot change =>
        obtain ⟨g, _, rfl⟩ := Option.map_eq_some_iff.mp hs
        trivial
      | wait c slot | waitWhile c slot condition =>
        obtain ⟨g, _, hs⟩ := Option.bind_eq_some_iff.mp hs
        rw [if_pos (hp g.mutex)] at hs
        contradiction
      | notifyOne c | notifyAll c | tag =>
        cases hs
        trivial
    cases call
    all_goals
      rw [thread_setStage_self]
      exact hawake
  · contradiction

variable [Recorder R]

theorem Step.awake {s : Stage V} (hs : s.Awake) (h : w.Step t s w') :
    (w'.thread t).stage.Awake := by
  cases h with
  | again | enough | slept | unslept | mixed | parked | rejoined | woke | resumed | unwoken =>
    exact hs.elim
  | @freed how g r => cases how <;> cases r <;> simp [closing, finish, Stage.Awake]
  | emitted | attempted | unattempted | occupied | poisoned | acquired | recorded | unrecorded
  | yielded | refused | unrefused | left | accessed | notifiedAll | notifiedNobody | notifiedOne
  | tagged => simp [finish, Stage.Awake]

variable {allowed : Call V → Prop} {drift : R → R → Prop} {w₀ : World V R} {ds : List Deed}

/-- Mutexes that can be poisoned do not work with condition variables: nobody waits. -/
theorem Run.awake (h₀ : w₀.Fresh) (hp : w₀.Every (·.poisons = true))
    (h : Run allowed drift w₀ ds w) (t : ThreadId) : (w.thread t).stage.Awake := by
  induction h generalizing t with
  | start =>
    rw [h₀.threads t]
    trivial
  | begin t' call hrun _ hb ih =>
    by_cases ht : t = t'
    · subst ht
      exact awake_begin (hrun.every Mutex.lasting_poisons hp) hb
    · rw [thread_begin_ne hb ht]
      exact ih t
  | advance t' pick _ ha ih =>
    by_cases ht : t = t'
    · subst ht
      exact (step_of_advance ha).awake (ih t)
    · exact awake_roused ((step_of_advance ha).others ht) (ih t)
  | rouse t' _ hr ih => exact awake_roused (roused_of_rouse hr t) (ih t)
  | collect t' a _ hc ih =>
    by_cases ht : t = t'
    · subst ht
      unfold World.collect at hc
      split at hc
      · cases hc
        rw [thread_setStage_self]
        trivial
      · contradiction
    · rw [thread_collect_ne hc ht]
      exact ih t
  | drift r _ _ ih => exact ih t

theorem Run.not_broke (h₀ : w₀.Fresh) (hp : w₀.Every (·.poisons = true))
    (h : Run allowed drift w₀ ds w) (t : ThreadId) (name : LockName) : .broke t name ∉ ds := by
  induction h with
  | start => exact List.not_mem_nil
  | begin t call _ _ _ ih | rouse t _ _ ih | collect t a _ _ ih | drift r _ _ ih => exact ih
  | @advance ds w w' t' pick hrun ha ih =>
    intro hm
    rcases List.mem_append.mp hm with hm | hm
    · exact ih hm
    · have hawake := hrun.awake h₀ hp t'
      have hd := Option.mem_toList.mp hm
      unfold deed? at hd
      split at hd
      · cases hd
      · cases hd
      · split at hd
        · cases hd
        · rename_i hs _
          rw [hs] at hawake
          exact hawake
        · cases hd

end World

end LockTrace
