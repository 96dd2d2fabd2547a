import LockTrace.Proofs.Threads.Bare
import LockTrace.Proofs.Threads.Linear

namespace LockTrace

variable {V W R : Type}

namespace World

/-- Nothing goes wrong with records, and whoever is in a sink has one to make. -/
structure Calm [Writer W] (w : World V (Hall W)) : Prop where
  plain : ∀ t, (w.thread t).stage.Plain
  few : ∃ T : List ThreadId, ∀ t, (w.thread t).stage.pending? ≠ none → t ∈ T
  steady : ∀ e, (w.booth e).sink.Steady
  sound : ∀ e t task, (w.booth e).inside = some (t, task) → task.Sound
  inside : ∀ e t task, (w.booth e).inside = some (t, task) →
    ∃ k name, (w.thread t).stage.pending? = some (e, k, name)

/-- No record is to be made. -/
def Settled (w : World V R) : Prop := ∀ t, (w.thread t).stage.pending? = none

section Stage

variable {w w' : World V R} {t : ThreadId}

theorem pending?_roused {th th' : Thread V} (h : Roused th th') :
    th'.stage.pending? = th.stage.pending? := by
  rcases h with rfl | ⟨c, g, resume, hs, rfl⟩
  · rfl
  · rw [hs]
    rfl

theorem plain_roused {th th' : Thread V} (h : Roused th th') (hs : th.stage.Plain) :
    th'.stage.Plain := by
  rcases h with rfl | ⟨c, g, resume, _, rfl⟩
  · exact hs
  · trivial

theorem Step.plain [Recorder R] {s : Stage V} (h : w.Step t s w') (hp : s.pending? = none)
    (hs : s.Plain) : (w'.thread t).stage.Plain := by
  cases h with
  | emitted | tagged => exact hs.elim
  | attempted | unattempted | recorded | unrecorded | refused | unrefused | left | slept
  | unslept | woke | resumed | unwoken => contradiction
  | @freed how _ r =>
    obtain rfl : r = .ok () := hs
    cases how
    all_goals
      rw [closing, finish, thread_setStage_self]
      trivial
  | poisoned =>
    rw [thread_setStage_self]
    rfl
  | occupied | acquired | yielded | accessed | again | enough | mixed | parked | rejoined
  | notifiedAll | notifiedNobody | notifiedOne =>
    first
    | rw [finish, thread_setStage_self]
      trivial
    | rw [thread_setStage_self]
      trivial

theorem plain_opening {call : Call V} {s : Stage V} (hc : call.Plain)
    (h : w.opening t call = some s) : s.Plain := by
  cases call with
  | emit | tag => exact hc.elim
  | lock patience e m label slot =>
    simp only [opening] at h
    split at h
    all_goals
      cases h
      trivial
  | leave | access =>
    obtain ⟨g, _, rfl⟩ := Option.map_eq_some_iff.mp h
    trivial
  | wait | waitWhile =>
    obtain ⟨g, _, h⟩ := Option.bind_eq_some_iff.mp h
    split at h
    · contradiction
    · cases h
      trivial
  | notifyOne | notifyAll =>
    cases h
    trivial

theorem plain_begin {call : Call V} (hc : call.Plain) (hb : w.begin t call = some w') :
    (w'.thread t).stage.Plain := by
  unfold begin at hb
  split at hb
  · obtain ⟨s, hs, rfl⟩ := Option.map_eq_some_iff.mp hb
    have hplain := plain_opening hc hs
    cases call
    all_goals
      rw [thread_setStage_self]
      exact hplain
  · contradiction

theorem plain_resume {x : EmitterId × Kind × LockName}
    (hp : (w.thread t).stage.pending? = some x) (hs : (w.thread t).stage.Plain) :
    ((w.resume t (.ok ())).thread t).stage.Plain := by
  cases hst : (w.thread t).stage
  all_goals
    rw [hst] at hp hs
  case emitting => exact hs.elim
  case attempting | recording | refusing | leaving | waiting =>
    simp only [resume, hst, finish, thread_setStage_self]
    trivial
  case waking resume =>
    cases resume
    all_goals
      simp only [World.resume, hst, finish, thread_setStage_self]
      trivial
  all_goals contradiction

end Stage

namespace Calm

variable [Writer W] {w w' : World V (Hall W)} {t : ThreadId} {e : EmitterId}

/-- Before the first call. -/
theorem start (h : ∀ t, w.thread t = {}) (hb : ∀ e, (w.booth e).Opens) : w.Calm where
  plain t := by
    rw [h t]
    trivial
  few := ⟨[], fun t hp => absurd (by rw [h t]; rfl) hp⟩
  steady e := (hb e).steady
  sound e t task ht := by
    rw [(hb e).inside] at ht
    contradiction
  inside e t task ht := by
    rw [(hb e).inside] at ht
    contradiction

theorem outside (h : w.Calm) (hp : (w.thread t).stage.pending? = none) (e : EmitterId)
    (task : Task) : (w.booth e).inside ≠ some (t, task) := by
  intro hin
  obtain ⟨k, name, hp'⟩ := h.inside e t task hin
  rw [hp] at hp'
  contradiction

/-- A thread outside of all sinks goes on, and at most wakes others. -/
theorem move (h : w.Calm) (hr : w'.recorder = w.recorder)
    (hfree : ∀ e task, (w.booth e).inside ≠ some (t, task)) (hs : (w'.thread t).stage.Plain)
    (ho : ∀ t', t' ≠ t → Roused (w.thread t') (w'.thread t')) : w'.Calm := by
  have hbooth (e : EmitterId) : w'.booth e = w.booth e := by rw [booth, hr, booth]
  constructor
  case plain =>
    intro t'
    by_cases ht : t' = t
    · subst ht
      exact hs
    · exact plain_roused (ho t' ht) (h.plain t')
  case few =>
    obtain ⟨T, hT⟩ := h.few
    refine ⟨t :: T, fun t' hp' => ?_⟩
    by_cases ht : t' = t
    · exact ht ▸ List.mem_cons_self ..
    · rw [pending?_roused (ho t' ht)] at hp'
      exact List.mem_cons_of_mem t (hT t' hp')
  case steady =>
    intro e
    rw [hbooth]
    exact h.steady e
  case sound =>
    intro e t' task ht
    rw [hbooth] at ht
    exact h.sound e t' task ht
  case inside =>
    intro e t' task hin
    rw [hbooth] at hin
    obtain ⟨k, name, hp'⟩ := h.inside e t' task hin
    have ht : t' ≠ t := by
      rintro rfl
      exact hfree e task hin
    exact ⟨k, name, (pending?_roused (ho t' ht)).trans hp'⟩

/-- What a sink and the thread inside do. -/
theorem work (h : w.Calm) (hs : ∀ t, (w'.thread t).stage = (w.thread t).stage) {b : Booth W}
    (hb : ∀ e', w'.booth e' = if e = e' then b else w.booth e') (hsteady : b.sink.Steady)
    (hsound : ∀ t task, b.inside = some (t, task) → task.Sound)
    (hin : ∀ t task, b.inside = some (t, task) →
      ∃ k name, (w.thread t).stage.pending? = some (e, k, name)) : w'.Calm where
  plain t := hs t ▸ h.plain t
  few := by
    obtain ⟨T, hT⟩ := h.few
    exact ⟨T, fun t hp => hT t (hs t ▸ hp)⟩
  steady e' := by
    rw [hb e']
    split
    · exact hsteady
    · exact h.steady e'
  sound e' t task ht := by
    rw [hb e'] at ht
    split at ht
    · exact hsound t task ht
    · exact h.sound e' t task ht
  inside e' t task ht := by
    rw [hb e'] at ht
    rw [hs t]
    split at ht
    · rename_i he
      exact he ▸ hin t task ht
    · exact h.inside e' t task ht

theorem part (h : w.Calm) {k : Kind} {name : LockName}
    (hp : (w.thread t).stage.pending? = some (e, k, name)) (hm : w.Part t e k name w') :
    w'.Calm := by
  have seat {w₁ : World V (Hall W)} (hs : ∀ t, (w₁.thread t).stage = (w.thread t).stage)
      (hb : ∀ e', w₁.booth e' = w.booth e') {task : Task} (ht : task.Sound) :
      (w₁.seat t e task).Calm := by
    refine h.work (e := e) (b := { w.booth e with inside := some (t, task) }) hs (fun e' => ?_)
      (h.steady e) (fun t' task' he => ?_) fun t' task' he => ?_
    · rw [World.seat, booth_setBooth, hb e, hb e']
    all_goals cases he
    · exact ht
    · exact ⟨k, name, hp⟩
  cases hm with
  | enter | time => exact seat (fun _ => rfl) (fun _ => rfl) trivial
  | encode =>
    refine seat (fun _ => rfl) (fun _ => rfl) fun cause hj => ?_
    cases hj
  | tag =>
    refine seat (fun t' => ?_) (booth_tagOf w t) trivial
    by_cases ht : t = t'
    · subst ht
      exact stage_tagOf w t
    · rw [thread_tagOf_ne w ht]
  | @work ev j hb hj =>
    obtain ⟨hsteady, hsound, _, _⟩ := (h.steady e).work (h.sound e t _ hb)
    refine h.work (fun _ => rfl) (booth_setBooth w e _) hsteady (fun t' task he => ?_)
      fun t' task he => ?_
    all_goals cases he
    · exact hsound
    · exact ⟨k, name, hp⟩

theorem vacate (h : w.Calm) (e : EmitterId) : (w.vacate e).Calm :=
  h.work (fun _ => rfl) (booth_setBooth w e _) (h.steady e) nofun nofun

theorem resume (h : w.Calm) {k : Kind} {name : LockName}
    (hp : (w.thread t).stage.pending? = some (e, k, name)) (hb : (w.booth e).inside = none) :
    (w.resume t (.ok ())).Calm := by
  refine h.move (recorder_resume hp _) (fun e' task hin => ?_) (plain_resume hp (h.plain t))
    fun t' ht => .inl (thread_resume_ne hp (Ne.symm ht) _)
  -- Whoever is inside the sink of an emitter has a record to make through that emitter.
  obtain ⟨k', name', hp'⟩ := h.inside e' t task hin
  rw [hp] at hp'
  cases hp'
  rw [hb] at hin
  contradiction

/-- What does not fail is not reported as failed. -/
theorem ok_of_done (h : w.Calm) {ev : Event} {r : Except IoError Unit}
    (hb : (w.booth e).inside = some (t, .work ev (.done r))) : r = .ok () := by
  cases r with
  | ok => rfl
  | error cause => exact (h.sound e t _ hb cause rfl).elim

end Calm

variable [Writer W] {w w' : World V (Hall W)}

omit [Writer W] in
theorem pending?_of_begin {t : ThreadId} {call : Call V} (hb : w.begin t call = some w') :
    (w.thread t).stage.pending? = none := by
  unfold begin at hb
  split at hb
  · rename_i hs
    rw [hs]
    rfl
  · contradiction

omit [Writer W] in
theorem pending?_of_collect {t : ThreadId} {a : Answer V} (hc : w.collect t = some (a, w')) :
    (w.thread t).stage.pending? = none ∧ (w'.thread t).stage = .idle := by
  unfold collect at hc
  split at hc
  · rename_i hs
    cases hc
    rw [hs, thread_setStage_self]
    exact ⟨rfl, rfl⟩
  · contradiction

omit [Writer W] in
theorem pending?_of_rouse {t : ThreadId} (hr : w.rouse t = some w') :
    (w.thread t).stage.pending? = none := by
  unfold rouse at hr
  split at hr
  · rename_i hs
    rw [hs]
    rfl
  · contradiction

/-- A thread that makes no record keeps away from the sinks. -/
theorem recorder_advance {t : ThreadId} {pick : List Waiter → Option Waiter}
    (hp : (w.thread t).stage.pending? = none) (ha : w.advance t pick = some w') :
    w'.recorder = w.recorder := by
  have hs (e : EmitterId) (k : Kind) (name : LockName) :
      (w.thread t).stage ≠ .emitting e k name := by
    intro hs
    rw [hs] at hp
    contradiction
  rcases (step_of_advance ha).outer hs with ⟨k, g, hu, _⟩ | ⟨_, ho | ho⟩
  · cases hst : (w.thread t).stage
    all_goals
      rw [hst] at hp hu
      contradiction
  · exact congrArg (·.1) ho
  · exact (congrArg (·.1) ho).trans (recorder_tagOf w t)

theorem bare_part {t : ThreadId} {e : EmitterId} {k : Kind} {name : LockName}
    (hm : w.Part t e k name w') : w'.bare = w.bare := by
  cases hm with
  | tag => exact bare_tagOf w t
  | _ => rfl

/-- A step of an emission, or of the clock, leaves all that is not recorded as it is. -/
theorem Calm.silent (h : w.Calm) {l : Label V} (hm : w.Stir l w') (hl : l.Silent) :
    w'.Calm ∧ w'.bare = w.bare := by
  cases hm with
  | begin | collect | act | rouse => exact hl.elim
  | part hp hm => exact ⟨h.part hp hm, bare_part hm⟩
  | @record t e k name ev r hp hb =>
    obtain rfl := h.ok_of_done hb
    have hv := h.vacate e
    refine ⟨hv.resume hp ?_, bare_resume hp (hv.plain t)⟩
    rw [World.vacate, booth_setBooth_self]
    rfl
  | tick => exact ⟨⟨h.plain, h.few, h.steady, h.sound, h.inside⟩, rfl⟩

/-- Any other step is one that threads take without tracing. -/
theorem Calm.loud (h : w.Calm) {l : Label V} (hm : w.Stir l w') (hl : ¬ l.Silent)
    (hc : ∀ t call, l.begun? = some (t, call) → call.Plain) :
    w'.Calm ∧ w.bare.Move l w'.bare := by
  cases hm with
  | part | record | tick => exact (hl trivial).elim
  | @begin t call _ hb =>
    have hplain := hc t call rfl
    refine ⟨h.move (congrArg (·.1) (outer_begin hb)) (h.outside (pending?_of_begin hb))
      (plain_begin hplain hb) fun t' ht => .inl (thread_begin_ne hb ht), .begin ?_⟩
    rw [← bare_begin hplain, hb]
    rfl
  | @collect t a _ hb =>
    obtain ⟨hp, hidle⟩ := pending?_of_collect hb
    refine ⟨h.move (congrArg (·.1) (outer_collect hb)) (h.outside hp) (hidle ▸ trivial)
      fun t' ht => .inl (thread_collect_ne hb ht), .collect ?_⟩
    rw [← bare_collect hp (h.plain t), hb]
    rfl
  | @act t _ pick hp ha =>
    have hs := step_of_advance ha
    refine ⟨h.move (recorder_advance hp ha) (h.outside hp) (hs.plain hp (h.plain t))
      fun t' ht => hs.others ht, .act pick ?_⟩
    rw [← bare_advance pick hp (h.plain t), ha]
    rfl
  | @rouse t _ hr =>
    have hroused := roused_of_rouse hr
    refine ⟨h.move (congrArg (·.1) (outer_rouse hr)) (h.outside (pending?_of_rouse hr))
      (plain_roused (hroused t) (h.plain t)) fun t' _ => hroused t', .rouse ?_⟩
    rw [← bare_rouse, hr]
    rfl

end World

end LockTrace
