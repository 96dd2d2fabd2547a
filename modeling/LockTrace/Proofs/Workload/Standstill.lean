import LockTrace.Proofs.Workload.Following

namespace LockTrace

open Function (update update_self update_of_ne)

variable {V R σ α : Type}

namespace Play

/-- Why a worker cannot move while an action is its next one: it has ended, waits for others to
arrive or for a mutex, or sleeps. -/
inductive Halted (r : Routine V σ) (own : ThreadId → List (Kind × LockName)) (p : Play V R σ)
    (t : ThreadId) : Action V σ → Prop
  | ended {result : Except String Unit} (hp : p.plot.progress t = .ahead)
      (he : p.hasEnded t = true) : Halted r own p t (.stop result)
  | alone {parties : Nat} {next : σ} (hp : p.plot.progress t = .ahead)
      (ha : p.arrivals < parties) : Halted r own p t (.meet parties next)
  | asleep {c : CondvarId} {slot : Slot} {condition : Condition V} {next : Answer V → σ}
      (hp : p.plot.progress t = .parked c) :
      Halted r own p t (.call (.waitWhile c slot condition) next)
  | asking {e : EmitterId} {m : MutexId} {label : String} {slot : Slot} {next : Answer V → σ}
      {name : LockName} {rs : List (Kind × LockName)} (hp : p.plot.progress t = .ahead)
      (hh : p.world.holder m ≠ none) (hl : LockName.ofString? label = some name)
      (hs : r.said t (p.places.get t) rs) (ho : own t = rs ++ [(.attempt, name)]) :
      Halted r own p t (.call (.lock .waits e m label slot) next)
  | roused {c : CondvarId} {slot : Slot} {condition : Condition V} {next : Answer V → σ}
      {g : Guard} (hg : r.keeps t (p.places.get t) slot = some g)
      (hp : p.plot.progress t = .roused) (hh : p.world.holder g.mutex ≠ none) :
      Halted r own p t (.call (.waitWhile c slot condition) next)

namespace Follows

variable {r : Routine V σ} {P : R → Prop} {own : ThreadId → List (Kind × LockName)}
  {p : Play V R σ} {t : ThreadId} [Recorder R]

/-- A worker in the middle of a call goes on, unless it sleeps or waits for a mutex. -/
theorem halted_of_advance (h : p.Follows r P own) (hi : (p.world.thread t).stage ≠ .idle)
    (hf : ∀ a, (p.world.thread t).stage ≠ .finished a)
    (hstuck : p.world.advance t List.head? = none) :
    p.Halted r own t (r.script t (p.places.get t)) := by
  obtain ⟨gs, rs₀, rs₁, hsaid, hwithin, hown, _⟩ := h.stands t
  generalize hs : (p.world.thread t).stage = st at hwithin hi hf
  have hp := progress_eq hs
  generalize r.script t (p.places.get t) = a at hwithin
  have going (hw : ∃ w, p.world.advance t List.head? = some w) : p.Halted r own t a := by
    obtain ⟨w, hw⟩ := hw
    rw [hstuck] at hw
    contradiction
  cases hwithin with
  | idle => exact absurd rfl hi
  | locked | accessed | left | waited | notifiedOne | notifiedAll => exact absurd rfl (hf _)
  | attempting | recording | accessing | leaving | freeing | judging | waiting | parking | waking
  | notifyingAll =>
    refine going ?_
    simp only [World.advance, hs]
    exact ⟨_, rfl⟩
  | parked hg seen n => exact .asleep hp
  | @acquiring e m label slot next name hl =>
    by_cases hh : p.world.holder m = none
    · refine going ?_
      have hh' : (p.world.mutex m).holder = none := hh
      simp only [World.advance, hs, hh']
      exact ⟨_, rfl⟩
    · exact .asking hp hh hl hsaid hown
  | @rejoining c slot condition next g hg seen n =>
    by_cases hh : p.world.holder g.mutex = none
    · refine going ?_
      have hh' : (p.world.mutex g.mutex).holder = none := hh
      simp only [World.advance, hs, hh']
      exact ⟨_, rfl⟩
    · exact .roused hg hp hh
  | @notifyingOne c next =>
    cases hw : p.world.waiters c with
    | nil =>
      refine going ?_
      simp only [World.advance, hs, hw]
      exact ⟨_, rfl⟩
    | cons x xs =>
      refine going ?_
      simp only [World.advance, hs, hw, List.head?_cons, List.mem_cons_self, if_true]
      exact ⟨_, rfl⟩

/-- A worker that cannot move is halted. -/
theorem halted (h : p.Follows r P own) (hstuck : ∀ pick, p.act r.script t pick = none) :
    p.Halted r own t (r.script t (p.places.get t)) := by
  have hstuck := hstuck List.head?
  by_cases hi : (p.world.thread t).stage = .idle
  · have hp := progress_eq hi
    cases hc : r.script t (p.places.get t) with
    | call c next =>
      obtain ⟨w, hb, _⟩ := h.begin hi hc
      rw [act_begin hi hc, hb] at hstuck
      contradiction
    | pause | note | arrive => simp [Play.act, World.collect, hi, hc] at hstuck
    | meet parties next =>
      refine .alone hp ?_
      simpa [Play.act, World.collect, hi, hc] using hstuck
    | stop result =>
      refine .ended hp ?_
      simpa [Play.act, World.collect, hi, hc] using hstuck
  · by_cases hf : ∃ a, (p.world.thread t).stage = .finished a
    · obtain ⟨a, hf⟩ := hf
      obtain ⟨gs, rs₀, rs₁, _, hwithin, _, _⟩ := h.stands t
      rw [hf] at hwithin
      generalize hc : r.script t (p.places.get t) = act at hwithin
      cases hwithin
      all_goals
        rw [act_collect hf hc] at hstuck
        contradiction
    · have hf' := fun a ha => hf ⟨a, ha⟩
      rw [act_advance hi hf', Option.map_eq_none_iff] at hstuck
      exact h.halted_of_advance hi hf' hstuck

end Follows

end Play

/-- Workers that keep one guard at a time, and wait for nothing else but their turn. -/
structure Routine.Modest (r : Routine V σ) : Prop where
  one : ∀ t s slot slot' g g', r.keeps t s slot = some g → r.keeps t s slot' = some g' →
    slot = slot'
  bare : ∀ t s e m label slot next, r.script t s = .call (.lock .waits e m label slot) next →
    ∀ slot', r.keeps t s slot' = none
  busy : ∀ t s parties next, r.script t s ≠ .meet parties next

namespace Play

variable {r : Routine V σ} {P : R → Prop} {own : ThreadId → List (Kind × LockName)}
  {p₀ p : Play V R σ} {t : ThreadId}

/-- Such a worker keeps no mutex from the others while it is halted. -/
theorem Halted.held_eq_none (hm : r.Modest)
    (h : p.Halted r own t (r.script t (p.places.get t))) (slot : Slot) :
    p.plot.held r t slot = none := by
  have allows := r.allows t (p.places.get t)
  generalize hc : r.script t (p.places.get t) = a at h allows
  -- the only guard of a sleeper is the one that it sleeps on
  have away {c : CondvarId} {slot' : Slot} {condition : Condition V} {next : Answer V → σ}
      (allows : r.Allows t (p.places.get t) (.call (.waitWhile c slot' condition) next)) :
      update (r.keeps t (p.places.get t)) slot' none slot = none := by
    obtain ⟨g, hg, _⟩ := allows
    by_cases hs : slot = slot'
    · rw [hs, update_self]
    · rw [update_of_ne hs]
      by_contra hne
      obtain ⟨g', hg'⟩ := Option.ne_none_iff_exists'.mp hne
      exact hs (hm.one t _ slot slot' g' g hg' hg)
  change r.holds t (p.places.get t) (p.plot.progress t) slot = none
  cases h with
  | ended hp =>
    rw [hp, Routine.holds_ahead]
    exact allows slot
  | alone => exact absurd hc (hm.busy _ _ _ _)
  | asleep hp =>
    rw [hp, Routine.holds_parked, Routine.holds_roused hc]
    exact away allows
  | asking hp =>
    rw [hp, Routine.holds_ahead]
    exact hm.bare _ _ _ _ _ _ _ hc slot
  | roused _ hp =>
    rw [hp, Routine.holds_roused hc]
    exact away allows

variable [Recorder R] {workers : List ThreadId} {drift : R → R → Prop}
  {mark : Play V R σ → ThreadId → Play V R σ → Option α} {xs : List α}

/-- Where none of such workers can move, all mutexes are free, and everybody has ended or
sleeps. -/
theorem Chronicle.settled (h₀ : Opens r P p₀) (hr : Recorder.Keeps r.emitter P)
    (hd : ∀ a b, drift a b → P a → P b) (hm : r.Modest)
    (h : Chronicle r.script workers drift mark p₀ xs p)
    (hf : p.Follows r P own)
    (hstuck : ∀ t ∈ workers, ∀ pick, p.act r.script t pick = none) :
    (∀ m, p.world.holder m = none) ∧ ∀ t ∈ workers, p.hasEnded t = true ∨
      ∃ c slot condition next, r.script t (p.places.get t) =
        .call (.waitWhile c slot condition) next ∧ p.plot.progress t = .parked c := by
  have hfree (m : MutexId) : p.world.holder m = none := by
    by_contra hne
    obtain ⟨t, ht⟩ := Option.ne_none_iff_exists'.mp hne
    obtain ⟨slot, g, hg, _⟩ := (hf.custody.holder t m).mp ht
    have hhalted := hf.halted (hstuck t (h.mem_of_holder h₀ hr hd ht))
    rw [hhalted.held_eq_none hm] at hg
    contradiction
  refine ⟨hfree, fun t ht => ?_⟩
  have hhalted := hf.halted (hstuck t ht)
  generalize hc : r.script t (p.places.get t) = a at hhalted
  cases hhalted with
  | ended _ he => exact .inl he
  | alone => exact absurd hc (hm.busy _ _ _ _)
  | asleep hp => exact .inr ⟨_, _, _, _, rfl, hp⟩
  | asking _ hh => exact absurd (hfree _) hh
  | roused _ _ hh => exact absurd (hfree _) hh

end Play

end LockTrace
