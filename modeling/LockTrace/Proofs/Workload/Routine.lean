import LockTrace.Proofs.Workload.Plot

namespace LockTrace

open Function (update update_self update_of_ne)

variable {V σ : Type}

/-- What is known of workers by their places: which guards they keep in which slots, and what they
may have recorded so far. All records go through one emitter, and whoever sleeps on a condition
variable gives up the same mutex for it. -/
structure Outline (V σ : Type) where
  emitter : EmitterId
  mutexOf : CondvarId → MutexId
  keeps : ThreadId → σ → Slot → Option Guard
  said : ThreadId → σ → List (Kind × LockName) → Prop

/-- The records of a number of sleeps. -/
def sleeps (name : LockName) (n : Nat) : List (Kind × LockName) :=
  (List.replicate n [(.wait, name), (.woken, name)]).flatten

/-- An action that fits the outline: it works with guards that are there, and what the worker keeps
and has recorded afterwards is what the outline says of its next place. -/
def Outline.Allows (o : Outline V σ) (t : ThreadId) (s : σ) : Action V σ → Prop
  | .call (.lock .waits e m label slot) next => e = o.emitter ∧ o.keeps t s slot = none ∧
      ∃ name, LockName.ofString? label = some name ∧
        o.keeps t (next .ok) = update (o.keeps t s) slot (some ⟨m, name, e⟩) ∧
        ∀ rs, o.said t s rs → o.said t (next .ok) (rs ++ [(.attempt, name), (.acquired, name)])
  | .call (.access slot _) next => (∃ g, o.keeps t s slot = some g) ∧
      ∀ v, o.keeps t (next (.value v)) = o.keeps t s ∧
        ∀ rs, o.said t s rs → o.said t (next (.value v)) rs
  | .call (.leave .dropped slot) next => ∃ g, o.keeps t s slot = some g ∧
      o.keeps t (next .ok) = update (o.keeps t s) slot none ∧
      ∀ rs, o.said t s rs → o.said t (next .ok) (rs ++ [(.released, g.name)])
  | .call (.waitWhile c slot _) next => ∃ g, o.keeps t s slot = some g ∧ g.mutex = o.mutexOf c ∧
      o.keeps t (next .ok) = o.keeps t s ∧
      ∀ rs n, o.said t s rs → o.said t (next .ok) (rs ++ sleeps g.name n)
  | .call (.notifyOne _) next => ∀ b, o.keeps t (next (.flag b)) = o.keeps t s ∧
      ∀ rs, o.said t s rs → o.said t (next (.flag b)) rs
  | .call (.notifyAll _) next => ∀ n, o.keeps t (next (.count n)) = o.keeps t s ∧
      ∀ rs, o.said t s rs → o.said t (next (.count n)) rs
  | .call _ _ => False
  | .pause _ next | .note _ next | .arrive next | .meet _ next => o.keeps t next = o.keeps t s ∧
      ∀ rs, o.said t s rs → o.said t next rs
  | .stop _ => ∀ slot, o.keeps t s slot = none

/-- The answers that the calls of a routine can have. -/
def Call.Answers : Call V → Answer V → Prop
  | .lock .., .ok | .leave .., .ok | .waitWhile .., .ok => True
  | .access .., .value _ | .notifyOne _, .flag _ | .notifyAll _, .count _ => True
  | _, _ => False

/-- A worker that keeps one guard, in its first slot. -/
def only (g : Guard) : Slot → Option Guard := update (fun _ => none) 0 (some g)

theorem only_zero (g : Guard) : only g 0 = some g := update_self ..

theorem only_eq_some {g g' : Guard} {slot : Slot} (h : only g slot = some g') :
    slot = 0 ∧ g' = g := by
  by_cases hs : slot = 0
  · rw [hs, only_zero] at h
    exact ⟨hs, (Option.some_inj.mp h).symm⟩
  · rw [only, update_of_ne hs] at h
    contradiction

theorem update_only (g : Guard) : update (only g) 0 none = fun _ => none := by
  rw [only, Function.update_idem, Function.update_eq_self_iff]

theorem of_update_none {f : Slot → Option Guard} {slot slot' : Slot} {g : Guard}
    (h : update f slot none slot' = some g) : f slot' = some g := by
  by_cases hs : slot' = slot
  · rw [hs, update_self] at h
    contradiction
  · rwa [update_of_ne hs] at h

/-- A script whose every action fits an outline. -/
structure Routine (V σ : Type) extends Outline V σ where
  script : Script V σ
  allows : ∀ t s, toOutline.Allows t s (script t s)
  through : ∀ t s slot g, keeps t s slot = some g → g.emitter = emitter

/-- The guards whose mutexes a worker holds, by its place and how far it is with its call there. A
sleeper has given up the mutex of the guard that it sleeps on. -/
def Routine.holds (r : Routine V σ) (t : ThreadId) (s : σ) (pr : Progress V) :
    Slot → Option Guard :=
  match pr, r.script t s with
  | .done a, .call _ next => r.keeps t (next a)
  | .parked _, .call (.waitWhile _ slot _) _ | .roused, .call (.waitWhile _ slot _) _ =>
    update (r.keeps t s) slot none
  | _, _ => r.keeps t s

namespace Routine

variable {r : Routine V σ} {t : ThreadId} {s : σ}

theorem holds_ahead : r.holds t s .ahead = r.keeps t s := rfl

theorem holds_dozing : r.holds t s .dozing = r.keeps t s := rfl

theorem holds_done {c : Call V} {next : Answer V → σ} (hc : r.script t s = .call c next)
    (a : Answer V) : r.holds t s (.done a) = r.keeps t (next a) := by
  simp only [holds, hc]

theorem holds_roused {c : CondvarId} {slot : Slot} {condition : Condition V}
    {next : Answer V → σ} (hc : r.script t s = .call (.waitWhile c slot condition) next) :
    r.holds t s .roused = update (r.keeps t s) slot none := by
  simp only [holds, hc]

theorem holds_parked (c : CondvarId) : r.holds t s (.parked c) = r.holds t s .roused := by
  cases hs : r.script t s with
  | call call next => cases call <;> simp [holds, hs]
  | pause | note | arrive | meet | stop => simp [holds, hs]

/-- Whatever a worker holds is a guard of some place. -/
theorem keeps_of_holds {pr : Progress V} {slot : Slot} {g : Guard}
    (h : r.holds t s pr slot = some g) : ∃ s', r.keeps t s' slot = some g := by
  have hroused (hp : r.holds t s .roused slot = some g) : r.keeps t s slot = some g := by
    cases hc : r.script t s with
    | call call next =>
      cases call with
      | waitWhile =>
        rw [holds_roused hc] at hp
        exact of_update_none hp
      | _ => simpa only [holds, hc] using hp
    | _ => simpa only [holds, hc] using hp
  cases pr with
  | ahead | dozing => exact ⟨s, h⟩
  | parked c => exact ⟨s, hroused (holds_parked c ▸ h)⟩
  | roused => exact ⟨s, hroused h⟩
  | done a =>
    cases hc : r.script t s with
    | call call next => exact ⟨next a, holds_done hc a ▸ h⟩
    | _ => exact ⟨s, by simpa only [holds, hc] using h⟩

/-- A sleeper that is woken does not hold its mutex yet. -/
theorem holds_rouse (c : CondvarId) (pr : Progress V) :
    r.holds t s (pr.rouse c) = r.holds t s pr := by
  cases pr with
  | parked c' =>
    rw [Progress.rouse]
    split
    · exact (holds_parked c').symm
    · rfl
  | ahead | dozing | roused | done => rfl

end Routine

namespace Plot

/-- A stage at which a worker does not touch what a mutex protects. -/
def Quiet : Stage V → Prop
  | .accessing .. => False
  | _ => True

/-- What a move of a worker from a stage, while an action is its next one, is to the others:
nothing, or the one thing that the move does to what they share. -/
inductive Turn (r : Routine V σ) (b : Plot V σ) (t : ThreadId) :
    Action V σ → Stage V → Plot V σ → Prop
  | quiet {a : Action V σ} {s : Stage V} (hs : Quiet s) : Turn r b t a s b
  | lock {e : EmitterId} {m : MutexId} {label : String} {slot : Slot} {next : Answer V → σ}
      {g : Guard} (hp : b.progress t = .ahead) (hf : b.holder m = none) :
      Turn r b t (.call (.lock .waits e m label slot) next) (.acquiring .waits g slot)
        { b with
          holder := update b.holder m (some t)
          progress := update b.progress t (.done .ok) }
  | access {slot : Slot} {change : V → V} {next : Answer V → σ} {g : Guard}
      (hg : r.keeps t (b.place t) slot = some g) (hp : b.progress t = .ahead) :
      Turn r b t (.call (.access slot change) next) (.accessing g change)
        { b with
          value := update b.value g.mutex (change (b.value g.mutex))
          progress := update b.progress t (.done (.value (change (b.value g.mutex)))) }
  | leave {slot : Slot} {next : Answer V → σ} {g : Guard}
      (hg : r.keeps t (b.place t) slot = some g) (hp : b.progress t = .ahead) :
      Turn r b t (.call (.leave .dropped slot) next) (.freeing .dropped g (.ok ()))
        { b with
          holder := update b.holder g.mutex none
          progress := update b.progress t (.done .ok) }
  | again {c : CondvarId} {slot : Slot} {condition : Condition V} {next : Answer V → σ}
      {g : Guard} {seen : List V} {v : V}
      (hg : r.keeps t (b.place t) slot = some g) (hp : b.progress t = .ahead)
      (hv : condition seen (b.value g.mutex) = (true, v)) :
      Turn r b t (.call (.waitWhile c slot condition) next) (.judging c g condition seen)
        { b with
          value := update b.value g.mutex v
          progress := update b.progress t .dozing }
  | enough {c : CondvarId} {slot : Slot} {condition : Condition V} {next : Answer V → σ}
      {g : Guard} {seen : List V} {v : V}
      (hg : r.keeps t (b.place t) slot = some g) (hp : b.progress t = .ahead)
      (hv : condition seen (b.value g.mutex) = (false, v)) :
      Turn r b t (.call (.waitWhile c slot condition) next) (.judging c g condition seen)
        { b with
          value := update b.value g.mutex v
          progress := update b.progress t (.done .ok) }
  | park {c : CondvarId} {slot : Slot} {condition : Condition V} {next : Answer V → σ}
      {g : Guard} {resume : Resume V}
      (hg : r.keeps t (b.place t) slot = some g) (hp : b.progress t = .dozing) :
      Turn r b t (.call (.waitWhile c slot condition) next) (.parking c g resume)
        { b with
          holder := update b.holder g.mutex none
          progress := update b.progress t (.parked c) }
  | rouse {c : CondvarId} {slot : Slot} {condition : Condition V} {next : Answer V → σ}
      {g : Guard} {resume : Resume V} (hp : b.progress t = .parked c) :
      Turn r b t (.call (.waitWhile c slot condition) next) (.parked c g resume)
        { b with progress := update b.progress t .roused }
  | rejoin {c : CondvarId} {slot : Slot} {condition : Condition V} {next : Answer V → σ}
      {g : Guard} {resume : Resume V}
      (hg : r.keeps t (b.place t) slot = some g) (hp : b.progress t = .roused)
      (hf : b.holder g.mutex = none) :
      Turn r b t (.call (.waitWhile c slot condition) next) (.rejoining c g resume)
        { b with
          holder := update b.holder g.mutex (some t)
          progress := update b.progress t .ahead }
  | notifyOne {c : CondvarId} {next : Answer V → σ} (x : ThreadId)
      (hp : b.progress t = .ahead) (hx : b.progress x = .parked c) :
      Turn r b t (.call (.notifyOne c) next) (.notifying c false)
        { b with
          progress := update (update b.progress x .roused) t (.done (.flag true)) }
  | notifyNobody {c : CondvarId} {next : Answer V → σ}
      (hp : b.progress t = .ahead) (hx : ∀ x, b.progress x ≠ .parked c) :
      Turn r b t (.call (.notifyOne c) next) (.notifying c false)
        { b with progress := update b.progress t (.done (.flag false)) }
  | notifyAll {c : CondvarId} {next : Answer V → σ} {n : Nat} (hp : b.progress t = .ahead) :
      Turn r b t (.call (.notifyAll c) next) (.notifying c true)
        { b with
          progress := update (fun x => (b.progress x).rouse c) t (.done (.count n)) }
  | collect {c : Call V} {a : Answer V} {next : Answer V → σ} (hp : b.progress t = .done a)
      (ha : c.Answers a) :
      Turn r b t (.call c next) (.finished a)
        { b with place := update b.place t (next a), progress := update b.progress t .ahead }
  | pause {ms : Nat} {next : σ} (hp : b.progress t = .ahead) :
      Turn r b t (.pause ms next) .idle { b with place := update b.place t next }
  | note {n : Notice} {next : σ} (hp : b.progress t = .ahead) :
      Turn r b t (.note n next) .idle
        { b with place := update b.place t next, notices := b.notices ++ [n] }
  | arrive {next : σ} (hp : b.progress t = .ahead) :
      Turn r b t (.arrive next) .idle
        { b with place := update b.place t next, arrivals := b.arrivals + 1 }
  | meet {parties : Nat} {next : σ} (hp : b.progress t = .ahead) (ha : parties ≤ b.arrivals) :
      Turn r b t (.meet parties next) .idle { b with place := update b.place t next }
  | stop {result : Except String Unit} (hp : b.progress t = .ahead)
      (he : ∀ e ∈ b.ended, e.1 ≠ t) :
      Turn r b t (.stop result) .idle { b with ended := b.ended ++ [(t, result)] }

/-- A turn leaves the others where they are, and at most wakes them. -/
theorem Turn.others {r : Routine V σ} {b b' : Plot V σ} {t t' : ThreadId} {a : Action V σ}
    {s : Stage V} (h : b.Turn r t a s b') (ht : t' ≠ t) : b'.place t' = b.place t' ∧
      (b'.progress t' = b.progress t' ∨
        ∃ c, b.progress t' = .parked c ∧ b'.progress t' = .roused) := by
  cases h with
  | quiet | stop => exact ⟨rfl, .inl rfl⟩
  | lock | access | leave | again | enough | park | rouse | rejoin | notifyNobody =>
    exact ⟨rfl, .inl (update_of_ne ht ..)⟩
  | @notifyOne c next x hp hx =>
    refine ⟨rfl, ?_⟩
    dsimp only
    rw [update_of_ne ht]
    by_cases he : t' = x
    · subst he
      exact .inr ⟨c, hx, update_self ..⟩
    · exact .inl (update_of_ne he ..)
  | @notifyAll c next n hp =>
    refine ⟨rfl, ?_⟩
    dsimp only
    rw [update_of_ne ht]
    by_cases he : b.progress t' = .parked c
    · refine .inr ⟨c, he, ?_⟩
      rw [he]
      exact if_pos rfl
    · exact .inl (Progress.rouse_of_ne he)
  | collect => exact ⟨update_of_ne ht .., .inl (update_of_ne ht ..)⟩
  | pause | note | arrive | meet => exact ⟨update_of_ne ht .., .inl rfl⟩

/-- What does not tell a sleeper from one that was woken is the same for the others after a turn. -/
theorem Turn.others_congr {α : Type} {r : Routine V σ} {b b' : Plot V σ} {t t' : ThreadId}
    {a : Action V σ} {s : Stage V} (h : b.Turn r t a s b') (ht : t' ≠ t)
    {f : σ → Progress V → α} (hf : ∀ s c, f s (.parked c) = f s .roused) :
    f (b'.place t') (b'.progress t') = f (b.place t') (b.progress t') := by
  obtain ⟨hplace, hsame | ⟨c, hparked, hroused⟩⟩ := h.others ht
  · rw [hplace, hsame]
  · rw [hplace, hparked, hroused, hf]

/-- Who has ended stays where the script says so. -/
theorem Turn.stops {r : Routine V σ} {b b' : Plot V σ} {t : ThreadId} {s : Stage V}
    (ht : b.Turn r t (r.script t (b.place t)) s b')
    (h : ∀ e ∈ b.ended, r.script e.1 (b.place e.1) = .stop e.2) :
    ∀ e ∈ b'.ended, r.script e.1 (b'.place e.1) = .stop e.2 := by
  generalize hc : r.script t (b.place t) = a at ht
  have moved {s' : σ} (hgoes : ∀ result, a ≠ .stop result) :
      ∀ e ∈ b.ended, r.script e.1 (update b.place t s' e.1) = .stop e.2 := by
    intro e he
    by_cases hte : e.1 = t
    · exact absurd (hc.symm.trans (hte ▸ h e he)) (hgoes e.2)
    · rw [update_of_ne hte]
      exact h e he
  cases ht with
  | collect | pause | note | arrive | meet => exact moved nofun
  | stop =>
    intro e he
    rcases List.mem_append.mp he with he | he
    · exact h e he
    · rw [List.mem_singleton.mp he]
      exact hc
  | _ => exact h

/-- The guards whose mutexes a worker holds. -/
def held (r : Routine V σ) (b : Plot V σ) (t : ThreadId) : Slot → Option Guard :=
  r.holds t (b.place t) (b.progress t)

/-- Who holds a mutex does so by one guard. -/
structure Custody (r : Routine V σ) (b : Plot V σ) : Prop where
  holder : ∀ t m, b.holder m = some t ↔ ∃ slot g, b.held r t slot = some g ∧ g.mutex = m
  apart : ∀ t slot slot' g g', b.held r t slot = some g → b.held r t slot' = some g' →
    g.mutex = g'.mutex → slot = slot'

namespace Custody

variable {r : Routine V σ} {b b' : Plot V σ} {t : ThreadId}

/-- Nobody takes a mutex or lets one go. -/
theorem same (h : b.Custody r) (hh : b'.holder = b.holder)
    (hheld : ∀ t, b'.held r t = b.held r t) : b'.Custody r where
  holder t m := by
    rw [hh, hheld]
    exact h.holder t m
  apart t := by
    rw [hheld]
    exact h.apart t

/-- A worker gets a guard, and the mutex of it. -/
theorem take (h : b.Custody r) {slot : Slot} {g : Guard} (hf : b.holder g.mutex = none)
    (hh : b'.holder = update b.holder g.mutex (some t))
    (hself : b'.held r t = update (b.held r t) slot (some g)) (hslot : b.held r t slot = none)
    (hothers : ∀ t' ≠ t, b'.held r t' = b.held r t') : b'.Custody r where
  holder t' m := by
    rw [hh]
    by_cases ht : t' = t
    · subst ht
      rw [hself]
      by_cases hm : m = g.mutex
      · subst hm
        rw [update_self]
        exact iff_of_true rfl ⟨slot, g, update_self .., rfl⟩
      · rw [update_of_ne hm, h.holder]
        constructor
        · rintro ⟨slot', g', hg', rfl⟩
          have hne : slot' ≠ slot := by
            rintro rfl
            rw [hslot] at hg'
            contradiction
          exact ⟨slot', g', by rw [update_of_ne hne, hg'], rfl⟩
        · rintro ⟨slot', g', hg', rfl⟩
          have hne : slot' ≠ slot := by
            rintro rfl
            rw [update_self] at hg'
            cases hg'
            exact hm rfl
          rw [update_of_ne hne] at hg'
          exact ⟨slot', g', hg', rfl⟩
    · rw [hothers t' ht, ← h.holder]
      by_cases hm : m = g.mutex
      · subst hm
        rw [update_self, hf]
        exact iff_of_false (fun he => ht (Option.some_inj.mp he).symm) nofun
      · rw [update_of_ne hm]
  apart t' slot₁ slot₂ g₁ g₂ h₁ h₂ he := by
    by_cases ht : t' = t
    · subst ht
      rw [hself] at h₁ h₂
      -- no guard that was there before has the mutex of the new one
      have hnew {slot' : Slot} {g' : Guard} (hg' : b.held r t' slot' = some g') :
          g'.mutex ≠ g.mutex := by
        intro hm
        rw [← hm, (h.holder t' g'.mutex).mpr ⟨slot', g', hg', rfl⟩] at hf
        contradiction
      by_cases hs₁ : slot₁ = slot <;> by_cases hs₂ : slot₂ = slot
      · rw [hs₁, hs₂]
      · rw [hs₁, update_self] at h₁
        rw [update_of_ne hs₂] at h₂
        cases h₁
        exact absurd he.symm (hnew h₂)
      · rw [update_of_ne hs₁] at h₁
        rw [hs₂, update_self] at h₂
        cases h₂
        exact absurd he (hnew h₁)
      · rw [update_of_ne hs₁] at h₁
        rw [update_of_ne hs₂] at h₂
        exact h.apart t' slot₁ slot₂ g₁ g₂ h₁ h₂ he
    · rw [hothers t' ht] at h₁ h₂
      exact h.apart t' slot₁ slot₂ g₁ g₂ h₁ h₂ he

/-- A worker gives up a guard, and the mutex of it. -/
theorem free (h : b.Custody r) {slot : Slot} {g : Guard} (hg : b.held r t slot = some g)
    (hh : b'.holder = update b.holder g.mutex none)
    (hself : b'.held r t = update (b.held r t) slot none)
    (hothers : ∀ t' ≠ t, b'.held r t' = b.held r t') : b'.Custody r where
  holder t' m := by
    have hholds : b.holder g.mutex = some t := (h.holder t g.mutex).mpr ⟨slot, g, hg, rfl⟩
    rw [hh]
    by_cases ht : t' = t
    · subst ht
      rw [hself]
      by_cases hm : m = g.mutex
      · subst hm
        rw [update_self]
        refine iff_of_false nofun ?_
        rintro ⟨slot', g', hg', he⟩
        by_cases hs : slot' = slot
        · rw [hs, update_self] at hg'
          contradiction
        · rw [update_of_ne hs] at hg'
          exact hs (h.apart t' slot' slot g' g hg' hg he)
      · rw [update_of_ne hm, h.holder]
        constructor
        · rintro ⟨slot', g', hg', rfl⟩
          have hne : slot' ≠ slot := by
            rintro rfl
            rw [hg] at hg'
            cases hg'
            exact hm rfl
          exact ⟨slot', g', by rw [update_of_ne hne, hg'], rfl⟩
        · rintro ⟨slot', g', hg', rfl⟩
          have hne : slot' ≠ slot := by
            rintro rfl
            rw [update_self] at hg'
            contradiction
          rw [update_of_ne hne] at hg'
          exact ⟨slot', g', hg', rfl⟩
    · rw [hothers t' ht, ← h.holder]
      by_cases hm : m = g.mutex
      · subst hm
        rw [update_self, hholds]
        exact iff_of_false nofun fun he => ht (Option.some_inj.mp he).symm
      · rw [update_of_ne hm]
  apart t' slot₁ slot₂ g₁ g₂ h₁ h₂ he := by
    by_cases ht : t' = t
    · subst ht
      rw [hself] at h₁ h₂
      exact h.apart t' slot₁ slot₂ g₁ g₂ (of_update_none h₁) (of_update_none h₂) he
    · rw [hothers t' ht] at h₁ h₂
      exact h.apart t' slot₁ slot₂ g₁ g₂ h₁ h₂ he

/-- A worker goes on, and nobody takes a mutex or lets one go. -/
theorem goes (h : b.Custody r) {s : σ} {pr : Progress V} (hh : b'.holder = b.holder)
    (hpl : b'.place = update b.place t s) (hpr : b'.progress = update b.progress t pr)
    (hself : r.holds t s pr = b.held r t) : b'.Custody r := by
  refine h.same hh fun t' => ?_
  rw [held, hpl, hpr]
  by_cases ht : t' = t
  · subst ht
    rw [update_self, update_self, hself]
  · rw [update_of_ne ht, update_of_ne ht]
    rfl

/-- Whatever a worker does, who holds a mutex does so by one guard. -/
theorem turn (h : b.Custody r) {s : Stage V} (ht : b.Turn r t (r.script t (b.place t)) s b') :
    b'.Custody r := by
  have allows := r.allows t (b.place t)
  generalize hc : r.script t (b.place t) = a at ht allows
  have stays : b.place = update b.place t (b.place t) := (Function.update_eq_self ..).symm
  have others {pr : Progress V} {t' : ThreadId} (ht' : t' ≠ t) :
      r.holds t' (b.place t') (update b.progress t pr t') = b.held r t' := by
    rw [update_of_ne ht']
    rfl
  have ahead (hp : b.progress t = .ahead) : b.held r t = r.keeps t (b.place t) := by
    rw [held, hp, Routine.holds_ahead]
  cases ht with
  | quiet => exact h
  | @lock e m label slot next g hp hf =>
    obtain ⟨_, hslot, name, _, hkeeps, _⟩ := allows
    refine h.take (g := ⟨m, name, e⟩) hf rfl ?_ (ahead hp ▸ hslot) fun t' ht' => others ht'
    rw [ahead hp, ← hkeeps, ← Routine.holds_done hc, held]
    dsimp only
    rw [update_self]
  | access _ hp =>
    refine h.goes rfl stays rfl ?_
    rw [Routine.holds_done hc, (allows.2 _).1, ahead hp]
  | @leave slot next g hg hp =>
    obtain ⟨_, _, hkeeps, _⟩ := allows
    refine h.free (ahead hp ▸ hg) rfl ?_ fun t' ht' => others ht'
    rw [ahead hp, ← hkeeps, ← Routine.holds_done hc, held]
    dsimp only
    rw [update_self]
  | again _ hp _ =>
    refine h.goes rfl stays rfl ?_
    rw [Routine.holds_dozing, ahead hp]
  | enough _ hp _ =>
    obtain ⟨_, _, _, hkeeps, _⟩ := allows
    refine h.goes rfl stays rfl ?_
    rw [Routine.holds_done hc, hkeeps, ahead hp]
  | park hg hp =>
    have hheld : b.held r t = r.keeps t (b.place t) := by rw [held, hp, Routine.holds_dozing]
    refine h.free (hheld ▸ hg) rfl ?_ fun t' ht' => others ht'
    rw [hheld, ← Routine.holds_roused hc, ← Routine.holds_parked, held]
    dsimp only
    rw [update_self]
  | rouse hp =>
    refine h.goes rfl stays rfl ?_
    rw [held, hp, Routine.holds_parked]
  | @rejoin c slot condition next g resume hg hp hf =>
    have hheld : b.held r t = update (r.keeps t (b.place t)) slot none := by
      rw [held, hp, Routine.holds_roused hc]
    have hslot : b.held r t slot = none := by rw [hheld, update_self]
    refine h.take hf rfl ?_ hslot fun t' ht' => others ht'
    rw [hheld, Function.update_idem, ← hg, Function.update_eq_self, held]
    dsimp only
    rw [update_self, Routine.holds_ahead]
  | @notifyOne c next x hp hx =>
    have hne : x ≠ t := by
      rintro rfl
      rw [hp] at hx
      contradiction
    have hcalled : Custody r { b with progress := update b.progress x .roused } := by
      refine h.goes rfl (Function.update_eq_self x b.place).symm rfl ?_
      rw [held, hx, Routine.holds_parked]
    refine hcalled.goes rfl stays rfl ?_
    rw [Routine.holds_done hc, (allows true).1, held]
    dsimp only
    rw [update_of_ne (Ne.symm hne), hp, Routine.holds_ahead]
  | notifyNobody hp hx =>
    refine h.goes rfl stays rfl ?_
    rw [Routine.holds_done hc, (allows false).1, ahead hp]
  | @notifyAll c next n hp =>
    have hcalled : Custody r { b with progress := fun x => (b.progress x).rouse c } :=
      h.same rfl fun x => Routine.holds_rouse c _
    refine hcalled.goes rfl stays rfl ?_
    rw [Routine.holds_done hc, (allows n).1, held]
    dsimp only
    rw [Routine.holds_rouse, hp, Routine.holds_ahead]
  | collect hp =>
    refine h.goes rfl rfl rfl ?_
    rw [held, hp, Routine.holds_ahead, Routine.holds_done hc]
  | pause hp | note hp | arrive hp | meet hp _ =>
    have hpr : b.progress = update b.progress t .ahead := by
      rw [← hp]
      exact (Function.update_eq_self t b.progress).symm
    refine h.goes rfl rfl hpr ?_
    rw [Routine.holds_ahead, allows.1, ahead hp]
  | stop => exact h.same rfl fun _ => rfl

end Custody

end Plot

end LockTrace
