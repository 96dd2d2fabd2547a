import LockTrace.Proofs.Threads.World

namespace LockTrace.World

variable {V R : Type} [Recorder R]

/-- What a thread can do at a stage, and the world afterwards: one rule for each outcome. -/
inductive Step (w : World V R) (t : ThreadId) : Stage V → World V R → Prop
  | emitted {e : EmitterId} {k : Kind} {name : LockName} {r : Except TraceError Unit}
      {w₁ : World V R} (he : w.emit t e k name = (r, w₁)) :
      Step w t (.emitting e k name) (w₁.finish t (.ofResult r))
  | attempted {p : Patience} {g : Guard} {slot : Slot} {w₁ : World V R}
      (he : w.emit t g.emitter .attempt g.name = (.ok (), w₁)) :
      Step w t (.attempting p g slot) (w₁.setStage t (.acquiring p g slot))
  | unattempted {p : Patience} {g : Guard} {slot : Slot} {err : TraceError} {w₁ : World V R}
      (he : w.emit t g.emitter .attempt g.name = (.error err, w₁)) :
      Step w t (.attempting p g slot) (w₁.finish t (.failed err))
  | occupied {g : Guard} {slot : Slot} (hf : w.holder g.mutex ≠ none) :
      Step w t (.acquiring .tries g slot) (w.setStage t (.refusing g))
  | poisoned {p : Patience} {g : Guard} {slot : Slot} (hf : w.holder g.mutex = none)
      (hp : (w.mutex g.mutex).poisoned = true) :
      Step w t (.acquiring p g slot)
        ((w.take t g.mutex).setStage t (.yielding g (.poisoned g.name)))
  | acquired {p : Patience} {g : Guard} {slot : Slot} (hf : w.holder g.mutex = none)
      (hp : (w.mutex g.mutex).poisoned = false) :
      Step w t (.acquiring p g slot) ((w.take t g.mutex).setStage t (.recording g slot))
  | recorded {g : Guard} {slot : Slot} {w₁ : World V R}
      (he : w.emit t g.emitter .acquired g.name = (.ok (), w₁)) :
      Step w t (.recording g slot) ((w₁.keep t g slot).finish t .ok)
  | unrecorded {g : Guard} {slot : Slot} {err : TraceError} {w₁ : World V R}
      (he : w.emit t g.emitter .acquired g.name = (.error err, w₁)) :
      Step w t (.recording g slot) (w₁.setStage t (.yielding g err))
  | yielded {g : Guard} {err : TraceError} :
      Step w t (.yielding g err) ((w.free g.mutex false).finish t (.failed err))
  | refused {g : Guard} {w₁ : World V R}
      (he : w.emit t g.emitter .tryFailed g.name = (.ok (), w₁)) :
      Step w t (.refusing g) (w₁.finish t .notHeld)
  | unrefused {g : Guard} {err : TraceError} {w₁ : World V R}
      (he : w.emit t g.emitter .tryFailed g.name = (.error err, w₁)) :
      Step w t (.refusing g) (w₁.finish t (.failed err))
  | left {how : Leave} {g : Guard} {r : Except TraceError Unit} {w₁ : World V R}
      (he : w.emit t g.emitter .released g.name = (r, w₁)) :
      Step w t (.leaving how g) (w₁.setStage t (.freeing how g r))
  | freed {how : Leave} {g : Guard} {r : Except TraceError Unit} :
      Step w t (.freeing how g r) ((w.free g.mutex (how = .unwound)).closing t how g r)
  | accessed {g : Guard} {change : V → V} {v : V} (hv : change (w.mutex g.mutex).value = v) :
      Step w t (.accessing g change)
        ((w.setMutex g.mutex { w.mutex g.mutex with value := v }).finish t (.value v))
  | again {c : CondvarId} {g : Guard} {condition : Condition V} {seen : List V} {v : V}
      (hv : condition seen (w.mutex g.mutex).value = (true, v)) :
      Step w t (.judging c g condition seen)
        ((w.setMutex g.mutex { w.mutex g.mutex with value := v }).setStage t
          (.waiting c g (some (condition, seen ++ [(w.mutex g.mutex).value]))))
  | enough {c : CondvarId} {g : Guard} {condition : Condition V} {seen : List V} {v : V}
      (hv : condition seen (w.mutex g.mutex).value = (false, v)) :
      Step w t (.judging c g condition seen)
        ((w.setMutex g.mutex { w.mutex g.mutex with value := v }).finish t .ok)
  | slept {c : CondvarId} {g : Guard} {resume : Resume V} {w₁ : World V R}
      (he : w.emit t g.emitter .wait g.name = (.ok (), w₁)) :
      Step w t (.waiting c g resume) (w₁.setStage t (.parking c g resume))
  | unslept {c : CondvarId} {g : Guard} {resume : Resume V} {err : TraceError} {w₁ : World V R}
      (he : w.emit t g.emitter .wait g.name = (.error err, w₁)) :
      Step w t (.waiting c g resume) (w₁.finish t (.failed err))
  | mixed {c : CondvarId} {g : Guard} {resume : Resume V}
      (hx : (w.waiters c).any (·.mutex ≠ g.mutex) = true) :
      Step w t (.parking c g resume) (w.finish t (.panicked .mixedMutexes))
  | parked {c : CondvarId} {g : Guard} {resume : Resume V}
      (hx : (w.waiters c).any (·.mutex ≠ g.mutex) = false) :
      Step w t (.parking c g resume)
        (((w.free g.mutex false).setWaiters c (w.waiters c ++ [⟨t, g.mutex⟩])).setStage t
          (.parked c g resume))
  | rejoined {c : CondvarId} {g : Guard} {resume : Resume V} (hf : w.holder g.mutex = none) :
      Step w t (.rejoining c g resume) ((w.take t g.mutex).setStage t (.waking c g resume))
  | woke {c : CondvarId} {g : Guard} {w₁ : World V R}
      (he : w.emit t g.emitter .woken g.name = (.ok (), w₁)) :
      Step w t (.waking c g none) (w₁.finish t .ok)
  | resumed {c : CondvarId} {g : Guard} {condition : Condition V} {seen : List V}
      {w₁ : World V R} (he : w.emit t g.emitter .woken g.name = (.ok (), w₁)) :
      Step w t (.waking c g (some (condition, seen))) (w₁.setStage t (.judging c g condition seen))
  | unwoken {c : CondvarId} {g : Guard} {resume : Resume V} {err : TraceError} {w₁ : World V R}
      (he : w.emit t g.emitter .woken g.name = (.error err, w₁)) :
      Step w t (.waking c g resume) (w₁.finish t (.failed err))
  | notifiedAll {c : CondvarId} :
      Step w t (.notifying c true)
        (((w.setWaiters c []).rouseAll (w.waiters c)).finish t (.count (w.waiters c).length))
  | notifiedNobody {c : CondvarId} (hw : w.waiters c = []) :
      Step w t (.notifying c false) (w.finish t (.flag false))
  | notifiedOne {c : CondvarId} {x : Waiter} (hx : x ∈ w.waiters c) :
      Step w t (.notifying c false)
        (((w.setWaiters c ((w.waiters c).erase x)).rouseAll [x]).finish t (.flag true))
  | tagged : Step w t .tagging ((w.tagOf t).2.finish t (.tag (w.tagOf t).1))

/-- A thread that advances takes a step. -/
theorem step_of_advance {w w' : World V R} {t : ThreadId} {pick : List Waiter → Option Waiter}
    (ha : w.advance t pick = some w') : w.Step t (w.thread t).stage w' := by
  cases hs : (w.thread t).stage with
  | idle | finished | parked =>
    simp only [advance, hs] at ha
    contradiction
  | emitting e k name =>
    simp only [advance, hs] at ha
    cases ha
    exact .emitted rfl
  | attempting p g slot =>
    simp only [advance, hs] at ha
    rcases he : w.emit t g.emitter .attempt g.name with ⟨_ | _, w₁⟩
    all_goals
      rw [he] at ha
      cases ha
    · exact .unattempted he
    · exact .attempted he
  | acquiring p g slot =>
    simp only [advance, hs] at ha
    split at ha
    · contradiction
    · rename_i hf
      cases ha
      exact .occupied (Option.ne_none_iff_exists'.mpr ⟨_, hf⟩)
    · rename_i hf
      cases ha
      split
      · rename_i hp
        exact .poisoned hf hp
      · rename_i hp
        exact .acquired hf ((Bool.not_eq_true _).mp hp)
  | recording g slot =>
    simp only [advance, hs] at ha
    rcases he : w.emit t g.emitter .acquired g.name with ⟨_ | _, w₁⟩
    all_goals
      rw [he] at ha
      cases ha
    · exact .unrecorded he
    · exact .recorded he
  | yielding g err =>
    simp only [advance, hs] at ha
    cases ha
    exact .yielded
  | refusing g =>
    simp only [advance, hs] at ha
    rcases he : w.emit t g.emitter .tryFailed g.name with ⟨_ | _, w₁⟩
    all_goals
      rw [he] at ha
      cases ha
    · exact .unrefused he
    · exact .refused he
  | leaving how g =>
    simp only [advance, hs] at ha
    cases ha
    exact .left rfl
  | freeing how g r =>
    simp only [advance, hs] at ha
    cases ha
    exact .freed
  | accessing g change =>
    simp only [advance, hs] at ha
    cases ha
    exact .accessed rfl
  | judging c g condition seen =>
    simp only [advance, hs] at ha
    rcases hv : condition seen (w.mutex g.mutex).value with ⟨_ | _, v⟩
    all_goals
      rw [hv] at ha
      cases ha
    · exact .enough hv
    · exact .again hv
  | waiting c g resume =>
    simp only [advance, hs] at ha
    rcases he : w.emit t g.emitter .wait g.name with ⟨_ | _, w₁⟩
    all_goals
      rw [he] at ha
      cases ha
    · exact .unslept he
    · exact .slept he
  | parking c g resume =>
    simp only [advance, hs] at ha
    split at ha
    · rename_i hx
      cases ha
      exact .mixed hx
    · rename_i hx
      cases ha
      exact .parked ((Bool.not_eq_true _).mp hx)
  | rejoining c g resume =>
    simp only [advance, hs] at ha
    split at ha
    · contradiction
    · rename_i hf
      cases ha
      exact .rejoined (Option.not_isSome_iff_eq_none.mp hf)
  | waking c g resume =>
    simp only [advance, hs] at ha
    rcases he : w.emit t g.emitter .woken g.name with ⟨_ | _, w₁⟩
    all_goals
      rw [he] at ha
    · cases ha
      exact .unwoken he
    · cases resume
      all_goals
        cases ha
      · exact .woke he
      · exact .resumed he
  | notifying c all =>
    cases all with
    | true =>
      simp only [advance, hs] at ha
      cases ha
      exact .notifiedAll
    | false =>
      simp only [advance, hs] at ha
      split at ha
      · rename_i hw
        cases ha
        exact .notifiedNobody hw
      · split at ha
        · contradiction
        · split at ha
          · rename_i hx
            cases ha
            exact .notifiedOne hx
          · contradiction
  | tagging =>
    simp only [advance, hs] at ha
    cases ha
    exact .tagged

section Others

variable {w w' : World V R} {t t' : ThreadId}

/-- A step of a thread leaves the others at their stages, or wakes them. -/
theorem Step.others {s : Stage V} (h : w.Step t s w') (ht : t' ≠ t) :
    Roused (w.thread t') (w'.thread t') := by
  have stage {w₁ : World V R} (h₁ : Roused (w.thread t') (w₁.thread t')) (s : Stage V) :
      Roused (w.thread t') ((w₁.setStage t s).thread t') := by
    rw [thread_setStage_ne w₁ (Ne.symm ht)]
    exact h₁
  have emitted {e : EmitterId} {k : Kind} {name : LockName} {r : Except TraceError Unit}
      {w₁ : World V R} (he : w.emit t e k name = (r, w₁)) :
      Roused (w.thread t') (w₁.thread t') := by
    obtain rfl : (w.emit t e k name).2 = w₁ := by rw [he]
    exact .inl (thread_tagOf_ne w (Ne.symm ht))
  have roused (c : CondvarId) (ws xs : List Waiter) :
      Roused (w.thread t') (((w.setWaiters c ws).rouseAll xs).thread t') :=
    thread_rouseAll (w.setWaiters c ws) xs t'
  cases h with
  | emitted he | attempted he | unattempted he | unrecorded he | refused he | unrefused he
  | left he | slept he | unslept he | woke he | resumed he | unwoken he =>
    exact stage (emitted he) _
  | @recorded g slot w₁ he =>
    refine stage ?_ _
    rw [keep, thread_setGuards_ne w₁ (Ne.symm ht)]
    exact emitted he
  | occupied | mixed | notifiedNobody => exact stage (.inl rfl) _
  | poisoned | acquired | rejoined | yielded | accessed | again | enough | parked =>
    exact stage (.inl rfl) _
  | @freed how g r => cases how <;> cases r <;> exact stage (.inl rfl) _
  | notifiedAll | notifiedOne => exact stage (roused _ _ _) _
  | tagged => exact stage (.inl (thread_tagOf_ne w (Ne.symm ht))) _

omit [Recorder R] in
theorem thread_begin_ne {call : Call V} (hb : w.begin t call = some w') (ht : t' ≠ t) :
    w'.thread t' = w.thread t' := by
  unfold begin at hb
  split at hb
  · obtain ⟨s, _, rfl⟩ := Option.map_eq_some_iff.mp hb
    cases call
    all_goals rw [thread_setStage_ne _ (Ne.symm ht)]
    exact thread_setGuards_ne w (Ne.symm ht) ..
  · contradiction

omit [Recorder R] in
theorem roused_of_rouse (hr : w.rouse t = some w') (t' : ThreadId) :
    Roused (w.thread t') (w'.thread t') := by
  unfold rouse at hr
  split at hr
  · rename_i c _ _ _
    cases hr
    exact thread_rouseAll (w.setWaiters c _) _ t'
  · contradiction

omit [Recorder R] in
theorem thread_collect_ne {a : Answer V} (hc : w.collect t = some (a, w')) (ht : t' ≠ t) :
    w'.thread t' = w.thread t' := by
  unfold collect at hc
  split at hc
  · cases hc
    exact thread_setStage_ne w (Ne.symm ht) _
  · contradiction

end Others

end LockTrace.World
