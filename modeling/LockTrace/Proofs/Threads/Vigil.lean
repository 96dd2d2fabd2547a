import LockTrace.Proofs.Threads.Attempt

namespace LockTrace

variable {V R : Type}

/-- What a test of a condition comes to: behind which guard was the value that it was shown, whether
the wait is to go on, and the value that it left. -/
structure Verdict (V : Type) where
  guard : Guard
  shown : V
  again : Bool
  left : V
  deriving DecidableEq

/-- The verdict that the watched thread comes to by its own move. -/
def Moment.verdict? (t : ThreadId) (x : Moment V R) : Option (Verdict V) :=
  match x.own, (x.before.thread t).stage with
  | true, .judging _ g condition seen =>
    let v := (x.before.mutex g.mutex).value
    some ⟨g, v, (condition seen v).1, (condition seen v).2⟩
  | _, _ => none

/-- All verdicts of the watched thread. -/
def verdicts (t : ThreadId) (xs : List (Moment V R)) : List (Verdict V) :=
  xs.filterMap (·.verdict? t)

/-- Each test of the condition was made behind this guard, while the thread had its mutex, and what
was shown and what was left was the value of that. -/
def Moment.Judges (t : ThreadId) (g : Guard) (x : Moment V R) : Prop :=
  ∀ v, x.verdict? t = some v → v.guard = g ∧
    x.before.holder g.mutex = some t ∧ x.after.holder g.mutex = some t ∧
    (x.before.mutex g.mutex).value = v.shown ∧ (x.after.mutex g.mutex).value = v.left

theorem verdicts_concat (t : ThreadId) (xs : List (Moment V R)) (x : Moment V R) :
    verdicts t (xs ++ [x]) = verdicts t xs ++ (x.verdict? t).toList := filterMap_concat ..

/-- The verdicts are those of this condition, which remembers the values that it was shown. -/
def Condition.Gives (condition : Condition V) (vs : List (Verdict V)) : Prop :=
  ∀ pre v post, vs = pre ++ v :: post →
    condition (pre.map (·.shown)) v.shown = (v.again, v.left)

theorem Condition.Gives.concat {condition : Condition V} {vs : List (Verdict V)} {v : Verdict V}
    (h : condition.Gives vs) (hv : condition (vs.map (·.shown)) v.shown = (v.again, v.left)) :
    condition.Gives (vs ++ [v]) := by
  intro pre v' post hsplit
  rcases split_append_singleton hsplit with ⟨rfl, rfl, -⟩ | ⟨post', -, hvs⟩
  · exact hv
  · exact h pre v' post' hvs

/-- Each record among these is of this guard, and is that of a sleep to come or, directly behind one
such that was taken, that of its end. -/
def Paired (g : Guard) (ts : List Telling) : Prop := ∀ pre y post, ts = pre ++ y :: post →
  y.guard = g ∧ (y.kind = .wait ∨ y.kind = .woken ∧ ∃ pre', pre = pre' ++ [⟨.wait, g, .ok ()⟩])

namespace Paired

variable {g : Guard} {ts : List Telling}

theorem nil : Paired g [] := by
  intro pre y post h
  simp at h

theorem wait (h : Paired g ts) (r : Except TraceError Unit) :
    Paired g (ts ++ [⟨.wait, g, r⟩]) := by
  intro pre y post hsplit
  rcases split_append_singleton hsplit with ⟨-, rfl, -⟩ | ⟨post', -, hts⟩
  · simp
  · exact h pre y post' hts

theorem woken (h : Paired g ts) (r : Except TraceError Unit) :
    Paired g (ts ++ [⟨.wait, g, .ok ()⟩, ⟨.woken, g, r⟩]) := by
  have hw := h.wait (.ok ())
  have he : ts ++ [⟨.wait, g, .ok ()⟩, ⟨.woken, g, r⟩] =
      ts ++ [⟨.wait, g, .ok ()⟩] ++ [⟨.woken, g, r⟩] := by simp
  rw [he]
  intro pre y post hsplit
  rcases split_append_singleton hsplit with ⟨rfl, rfl, -⟩ | ⟨post', -, hts⟩
  · simp
  · exact hw pre y post' hts

end Paired

/-- What is told of a guard in whole rounds of a wait: each time the condition wants it there is a
sleep, before and after which a record is taken. -/
inductive Rounds (g : Guard) : List (Verdict V) → List Telling → Prop
  | nil : Rounds g [] []
  | concat {vs : List (Verdict V)} {ts : List Telling} {v : Verdict V} (h : Rounds g vs ts)
      (ha : v.again = true) :
      Rounds g (vs ++ [v]) (ts ++ [⟨.wait, g, .ok ()⟩, ⟨.woken, g, .ok ()⟩])

namespace Rounds

variable {g : Guard} {vs : List (Verdict V)} {ts : List Telling}

theorem paired (h : Rounds g vs ts) : Paired g ts := by
  induction h with
  | nil => exact .nil
  | concat _ _ ih => exact ih.woken (.ok ())

theorem isOk (h : Rounds g vs ts) {y : Telling} (hy : y ∈ ts) : y.result = .ok () := by
  induction h with
  | nil => contradiction
  | concat _ _ ih =>
    rcases List.mem_append.mp hy with hy | hy
    · exact ih hy
    · simp only [List.mem_cons, List.not_mem_nil, or_false] at hy
      rcases hy with rfl | rfl <;> rfl

theorem countP_wait (h : Rounds g vs ts) : ts.countP (·.kind = .wait) = vs.countP (·.again) := by
  induction h with
  | nil => simp
  | concat _ ha ih => simp [ih, ha]

end Rounds

namespace World

variable {w w' w₁ w₂ : World V R} {t : ThreadId} {m : MutexId} {v : Verdict V}
  {xs : List (Moment V R)}

/-- From the last verdict up to this world, the thread has had the mutex without a break, and the
value stands as the test left it. -/
structure HeldSince (t : ThreadId) (m : MutexId) (v : Verdict V) (xs : List (Moment V R))
    (w : World V R) : Prop where
  unbroken : ∃ pre x post, xs = pre ++ x :: post ∧ x.verdict? t = some v ∧
    (∀ y ∈ post, y.verdict? t = none) ∧
    ∀ y ∈ x :: post, y.after.holder m = some t ∧ (y.after.mutex m).value = v.left
  holder : w.holder m = some t
  value : (w.mutex m).value = v.left

namespace HeldSince

theorem judged {x : Moment V R} (hx : x.verdict? t = some v) (hh : x.after.holder m = some t)
    (hv : (x.after.mutex m).value = v.left) : HeldSince t m v (xs ++ [x]) x.after where
  unbroken := by
    refine ⟨xs, x, [], rfl, hx, ?_, ?_⟩
    · simp
    · simpa using ⟨hh, hv⟩
  holder := hh
  value := hv

theorem concat (h : HeldSince t m v xs w) {x : Moment V R} (hx : x.verdict? t = none)
    (hm : x.after.mutex m = w.mutex m) : HeldSince t m v (xs ++ [x]) x.after := by
  have hh : x.after.holder m = some t := by
    rw [World.holder, hm]
    exact h.holder
  have hv : (x.after.mutex m).value = v.left := by
    rw [hm]
    exact h.value
  obtain ⟨pre, y, post, rfl, hy, hpost, hstays⟩ := h.unbroken
  refine ⟨⟨pre, y, post ++ [x], ?_, hy, ?_, ?_⟩, hh, hv⟩
  · simp
  · exact List.forall_mem_append.mpr ⟨hpost, List.forall_mem_singleton.mpr hx⟩
  · rw [← List.cons_append]
    exact List.forall_mem_append.mpr ⟨hstays, List.forall_mem_singleton.mpr ⟨hh, hv⟩⟩

end HeldSince

/-- The mutex of a wait is away: the thread sleeps, or is on its way back. -/
inductive Away (c : CondvarId) (g : Guard) (resume : Resume V) : Stage V → Prop
  | parked : Away c g resume (.parked c g resume)
  | rejoining : Away c g resume (.rejoining c g resume)
  | waking : Away c g resume (.waking c g resume)

variable [Recorder R]

/-- Where a wait for a condition stands, with what it has told and the verdicts that it came to. As
long as it has not given up the mutex since the last verdict, it has held it ever since. -/
inductive Watch (t : ThreadId) (c : CondvarId) (g : Guard) (condition : Condition V)
    (xs : List (Moment V R)) (w : World V R) : Stage V → Prop
  | judging {vs : List (Verdict V)} (hv : verdicts t xs = vs) (hr : Rounds g vs (told t xs)) :
      Watch t c g condition xs w (.judging c g condition (vs.map (·.shown)))
  | waiting {vs : List (Verdict V)} {v : Verdict V} (hv : verdicts t xs = vs ++ [v])
      (ha : v.again = true) (hr : Rounds g vs (told t xs)) (hs : HeldSince t g.mutex v xs w) :
      Watch t c g condition xs w (.waiting c g (some (condition, (vs ++ [v]).map (·.shown))))
  | parking {vs : List (Verdict V)} {v : Verdict V} {ts : List Telling}
      (hv : verdicts t xs = vs ++ [v]) (ha : v.again = true) (hr : Rounds g vs ts)
      (ht : told t xs = ts ++ [⟨.wait, g, .ok ()⟩]) (hs : HeldSince t g.mutex v xs w) :
      Watch t c g condition xs w (.parking c g (some (condition, (vs ++ [v]).map (·.shown))))
  | away {vs : List (Verdict V)} {v : Verdict V} {ts : List Telling} {s : Stage V}
      (hv : verdicts t xs = vs ++ [v]) (ha : v.again = true) (hr : Rounds g vs ts)
      (ht : told t xs = ts ++ [⟨.wait, g, .ok ()⟩])
      (hs : Away c g (some (condition, (vs ++ [v]).map (·.shown))) s) :
      Watch t c g condition xs w s
  | enough {vs : List (Verdict V)} {v : Verdict V} (hv : verdicts t xs = vs ++ [v])
      (ha : v.again = false) (hr : Rounds g vs (told t xs)) (hs : HeldSince t g.mutex v xs w) :
      Watch t c g condition xs w (.finished .ok)
  | unslept {vs : List (Verdict V)} {v : Verdict V} {ts : List Telling} {e : TraceError}
      (hv : verdicts t xs = vs ++ [v]) (ha : v.again = true) (hr : Rounds g vs ts)
      (ht : told t xs = ts ++ [⟨.wait, g, .error e⟩]) (hs : HeldSince t g.mutex v xs w) :
      Watch t c g condition xs w (.finished (.failed e))
  | mixed {vs : List (Verdict V)} {v : Verdict V} {ts : List Telling}
      (hv : verdicts t xs = vs ++ [v]) (ha : v.again = true) (hr : Rounds g vs ts)
      (ht : told t xs = ts ++ [⟨.wait, g, .ok ()⟩]) (hs : HeldSince t g.mutex v xs w) :
      Watch t c g condition xs w (.finished (.panicked .mixedMutexes))
  | unwoken {vs : List (Verdict V)} {v : Verdict V} {ts : List Telling} {e : TraceError}
      (hv : verdicts t xs = vs ++ [v]) (ha : v.again = true) (hr : Rounds g vs ts)
      (ht : told t xs = ts ++ [⟨.wait, g, .ok ()⟩, ⟨.woken, g, .error e⟩]) :
      Watch t c g condition xs w (.finished (.failed e))

variable {c : CondvarId} {g : Guard} {condition : Condition V} {s s' : Stage V}

/-- A sleeper may be woken, the rest stays as it is. -/
theorem Away.roused {resume : Resume V} {th th' : Thread V} (h : Away c g resume th.stage)
    (hr : Roused th th') : Away c g resume th'.stage := by
  rcases hr with rfl | ⟨c', g', resume', hs, rfl⟩
  · exact h
  · rw [hs] at h
    cases h
    exact .rejoining

section Verdict

omit [Recorder R]

theorem verdict_judging {seen : List V} (hs : (w₁.thread t).stage = .judging c g condition seen)
    {again : Bool} {left : V} (w₂ : World V R)
    (hc : condition seen (w₁.mutex g.mutex).value = (again, left)) :
    (⟨true, w₁, w₂⟩ : Moment V R).verdict? t =
      some ⟨g, (w₁.mutex g.mutex).value, again, left⟩ := by
  simp [Moment.verdict?, hs, hc]

theorem verdict_own_none (hs : ∀ c g condition seen,
    (w₁.thread t).stage ≠ .judging c g condition seen) :
    (⟨true, w₁, w₂⟩ : Moment V R).verdict? t = none := by
  unfold Moment.verdict?
  split
  · rename_i hj
    exact absurd hj (hs _ _ _ _)
  · rfl

theorem verdict_beside : (⟨false, w₁, w₂⟩ : Moment V R).verdict? t = none := by
  simp [Moment.verdict?]

/-- Whatever comes of a move without a verdict, the verdicts are those before. -/
theorem verdicts_concat_none {x : Moment V R} (hx : x.verdict? t = none) :
    verdicts t (xs ++ [x]) = verdicts t xs := by
  rw [verdicts_concat, hx, Option.toList_none, List.append_nil]

end Verdict

/-- What happens around the thread does not disturb its wait. -/
theorem Watch.beside (h : Watch t c g condition xs w₁ (w₁.thread t).stage)
    (hw : Spared t w₁ w₂) :
    Watch t c g condition (xs ++ [⟨false, w₁, w₂⟩]) w₂ (w₂.thread t).stage := by
  have hverdicts : verdicts t (xs ++ [⟨false, w₁, w₂⟩]) = verdicts t xs :=
    verdicts_concat_none verdict_beside
  have htold : told t (xs ++ [⟨false, w₁, w₂⟩]) = told t xs := told_beside
  have held {v : Verdict V} (hs : HeldSince t g.mutex v xs w₁) :
      HeldSince t g.mutex v (xs ++ [⟨false, w₁, w₂⟩]) w₂ :=
    hs.concat verdict_beside (hw.mutex g.mutex (.inl hs.holder))
  generalize hs₁ : (w₁.thread t).stage = s₁ at h
  have stays (hp : ∀ c g resume, s₁ ≠ .parked c g resume) : (w₂.thread t).stage = s₁ := by
    rw [← hs₁] at hp ⊢
    rw [eq_of_roused hw.thread hp]
  cases h with
  | judging hv hr =>
    rw [stays (by simp)]
    rw [← htold] at hr
    exact .judging (hverdicts.trans hv) hr
  | waiting hv ha hr hs =>
    rw [stays (by simp)]
    rw [← htold] at hr
    exact .waiting (hverdicts.trans hv) ha hr (held hs)
  | parking hv ha hr ht hs =>
    rw [stays (by simp)]
    exact .parking (hverdicts.trans hv) ha hr (htold.trans ht) (held hs)
  | away hv ha hr ht hs =>
    rw [← hs₁] at hs
    exact .away (hverdicts.trans hv) ha hr (htold.trans ht) (hs.roused hw.thread)
  | enough hv ha hr hs =>
    rw [stays (by simp)]
    rw [← htold] at hr
    exact .enough (hverdicts.trans hv) ha hr (held hs)
  | unslept hv ha hr ht hs =>
    rw [stays (by simp)]
    exact .unslept (hverdicts.trans hv) ha hr (htold.trans ht) (held hs)
  | mixed hv ha hr ht hs =>
    rw [stays (by simp)]
    exact .mixed (hverdicts.trans hv) ha hr (htold.trans ht) (held hs)
  | unwoken hv ha hr ht =>
    rw [stays (by simp)]
    exact .unwoken (hverdicts.trans hv) ha hr (htold.trans ht)

/-- How far a wait for a condition has come that began in an earlier world. -/
structure Vigil (w : World V R) (t : ThreadId) (c : CondvarId) (g : Guard)
    (condition : Condition V) (xs : List (Moment V R)) (w' : World V R) : Prop where
  watch : Watch t c g condition xs w' (w'.thread t).stage
  guards : (w'.thread t).guards = (w.thread t).guards
  judged : ∀ x ∈ xs, x.Judges t g
  gives : condition.Gives (verdicts t xs)

namespace Vigil

variable {hist : List (ThreadId × Guard × Feat V)}

/-- A move that leads to a new stage, by whatever verdict. -/
theorem become (h : Vigil w t c g condition xs w₁)
    (hwatch : Watch t c g condition (xs ++ [⟨true, w₁, w₂.setStage t s⟩]) (w₂.setStage t s) s)
    (hguards : (w₂.thread t).guards = (w₁.thread t).guards)
    (hjudged : (⟨true, w₁, w₂.setStage t s⟩ : Moment V R).Judges t g)
    (hgives : condition.Gives (verdicts t (xs ++ [⟨true, w₁, w₂.setStage t s⟩]))) :
    Vigil w t c g condition (xs ++ [⟨true, w₁, w₂.setStage t s⟩]) (w₂.setStage t s) where
  watch := by
    rw [thread_setStage_self]
    exact hwatch
  guards := by
    rw [thread_setStage_self, ← h.guards]
    exact hguards
  judged := by
    exact List.forall_mem_append.mpr ⟨h.judged, List.forall_mem_singleton.mpr hjudged⟩
  gives := hgives

/-- A move that leads to a new stage without a verdict. -/
theorem go (h : Vigil w t c g condition xs w₁)
    (hnone : (⟨true, w₁, w₂.setStage t s⟩ : Moment V R).verdict? t = none)
    (hguards : (w₂.thread t).guards = (w₁.thread t).guards)
    (hwatch : Watch t c g condition (xs ++ [⟨true, w₁, w₂.setStage t s⟩]) (w₂.setStage t s) s) :
    Vigil w t c g condition (xs ++ [⟨true, w₁, w₂.setStage t s⟩]) (w₂.setStage t s) := by
  apply h.become hwatch hguards
  · intro v hv
    rw [hnone] at hv
    contradiction
  · rw [verdicts_concat_none hnone]
    exact h.gives

theorem beside (h : Vigil w t c g condition xs w₁) (hw : Spared t w₁ w₂) :
    Vigil w t c g condition (xs ++ [⟨false, w₁, w₂⟩]) w₂ := by
  refine ⟨h.watch.beside hw, ?_, ?_, ?_⟩
  · rw [guards_roused hw.thread]
    exact h.guards
  · refine List.forall_mem_append.mpr ⟨h.judged, List.forall_mem_singleton.mpr ?_⟩
    intro v hv
    rw [verdict_beside] at hv
    contradiction
  · rw [verdicts_concat_none verdict_beside]
    exact h.gives

theorem own_judging {vs : List (Verdict V)} (h : Vigil w t c g condition xs w₁)
    (hst : w₁.Stands hist) (hs : (w₁.thread t).stage = .judging c g condition (vs.map (·.shown)))
    (hv : verdicts t xs = vs) (hr : Rounds g vs (told t xs))
    (hw : w₁.Step t (.judging c g condition (vs.map (·.shown))) w₂) :
    Vigil w t c g condition (xs ++ [⟨true, w₁, w₂⟩]) w₂ := by
  have hheld : w₁.holder g.mutex = some t := hst.holder_of_works hs rfl rfl
  have hu : (w₁.thread t).stage.utters = none := by simp [hs, Stage.utters]
  have judged {again : Bool} {left : V} (s : Stage V)
      (hc : condition (vs.map (·.shown)) (w₁.mutex g.mutex).value = (again, left))
      (hwatch : ∀ w₂ : World V R,
        verdicts t (xs ++ [⟨true, w₁, w₂⟩]) = vs ++ [⟨g, (w₁.mutex g.mutex).value, again, left⟩] →
        Rounds g vs (told t (xs ++ [⟨true, w₁, w₂⟩])) →
        HeldSince t g.mutex ⟨g, (w₁.mutex g.mutex).value, again, left⟩ (xs ++ [⟨true, w₁, w₂⟩]) w₂ →
        Watch t c g condition (xs ++ [⟨true, w₁, w₂⟩]) w₂ s) :
      Vigil w t c g condition (xs ++ [⟨true, w₁,
          (w₁.setMutex g.mutex { w₁.mutex g.mutex with value := left }).setStage t s⟩])
        ((w₁.setMutex g.mutex { w₁.mutex g.mutex with value := left }).setStage t s) := by
    generalize hw₃ : w₁.setMutex g.mutex { w₁.mutex g.mutex with value := left } = w₃
    have hmutex : w₃.mutex g.mutex = { w₁.mutex g.mutex with value := left } := by
      rw [← hw₃, mutex_setMutex, if_pos rfl]
    have hholder : (w₃.setStage t s).holder g.mutex = some t := by
      rw [holder, mutex_setStage, hmutex]
      exact hheld
    have hvalue : ((w₃.setStage t s).mutex g.mutex).value = left := by
      rw [mutex_setStage, hmutex]
    have hverdict := verdict_judging hs (w₃.setStage t s) hc
    have hverdicts : verdicts t (xs ++ [⟨true, w₁, w₃.setStage t s⟩]) =
        vs ++ [⟨g, (w₁.mutex g.mutex).value, again, left⟩] := by
      rw [verdicts_concat, hverdict, hv, Option.toList_some]
    apply h.become
    · apply hwatch _ hverdicts
      · rw [told_own_none hu]
        exact hr
      · exact .judged hverdict hholder hvalue
    · rw [← hw₃]
      rfl
    · intro v hv'
      rw [hverdict, Option.some.injEq] at hv'
      subst hv'
      exact ⟨rfl, hheld, hholder, rfl, hvalue⟩
    · rw [hverdicts]
      apply Condition.Gives.concat
      · rw [← hv]
        exact h.gives
      · exact hc
  cases hw with
  | @again _ _ _ _ v hc =>
    apply judged _ hc
    intro w₂ hverdicts hrounds hsince
    have hwatch : Watch t c g condition _ w₂ _ := .waiting hverdicts rfl hrounds hsince
    simpa using hwatch
  | enough hc =>
    apply judged _ hc
    intro w₂ hverdicts hrounds hsince
    exact .enough hverdicts rfl hrounds hsince

theorem own_waiting {vs : List (Verdict V)} {v : Verdict V} {resume : Resume V}
    (h : Vigil w t c g condition xs w₁)
    (hs : (w₁.thread t).stage = .waiting c g resume)
    (hresume : resume = some (condition, (vs ++ [v]).map (·.shown)))
    (hv : verdicts t xs = vs ++ [v]) (ha : v.again = true) (hr : Rounds g vs (told t xs))
    (hsince : HeldSince t g.mutex v xs w₁) (hw : w₁.Step t (.waiting c g resume) w₂) :
    Vigil w t c g condition (xs ++ [⟨true, w₁, w₂⟩]) w₂ := by
  have hu : (w₁.thread t).stage.utters = some (.wait, g) := by simp [hs, Stage.utters]
  have hnone (w₂ : World V R) : (⟨true, w₁, w₂⟩ : Moment V R).verdict? t = none := by
    apply verdict_own_none
    simp [hs]
  have hverdicts (w₂ : World V R) : verdicts t (xs ++ [⟨true, w₁, w₂⟩]) = vs ++ [v] :=
    (verdicts_concat_none (hnone w₂)).trans hv
  have held {k : Kind} {r : Except TraceError Unit} {w₃ : World V R}
      (he : w₁.emit t g.emitter k g.name = (r, w₃)) (s : Stage V) :
      HeldSince t g.mutex v (xs ++ [⟨true, w₁, w₃.setStage t s⟩]) (w₃.setStage t s) := by
    obtain rfl : (w₁.emit t g.emitter k g.name).2 = w₃ := by rw [he]
    apply hsince.concat (hnone _)
    simp
  have guards {k : Kind} {r : Except TraceError Unit} {w₃ : World V R}
      (he : w₁.emit t g.emitter k g.name = (r, w₃)) :
      (w₃.thread t).guards = (w₁.thread t).guards := (uttered he).2.1
  subst hresume
  cases hw with
  | slept he =>
    apply h.go (hnone _) (guards he)
    exact .parking (hverdicts _) ha hr (told_own hu he) (held he _)
  | unslept he =>
    apply h.go (hnone _) (guards he)
    exact .unslept (hverdicts _) ha hr (told_own hu he) (held he _)

theorem own_parking {vs : List (Verdict V)} {v : Verdict V} {ts : List Telling}
    {resume : Resume V} (h : Vigil w t c g condition xs w₁)
    (hs : (w₁.thread t).stage = .parking c g resume)
    (hresume : resume = some (condition, (vs ++ [v]).map (·.shown)))
    (hv : verdicts t xs = vs ++ [v]) (ha : v.again = true) (hr : Rounds g vs ts)
    (ht : told t xs = ts ++ [⟨.wait, g, .ok ()⟩]) (hsince : HeldSince t g.mutex v xs w₁)
    (hw : w₁.Step t (.parking c g resume) w₂) :
    Vigil w t c g condition (xs ++ [⟨true, w₁, w₂⟩]) w₂ := by
  have hu : (w₁.thread t).stage.utters = none := by simp [hs, Stage.utters]
  have hnone (w₂ : World V R) : (⟨true, w₁, w₂⟩ : Moment V R).verdict? t = none := by
    apply verdict_own_none
    simp [hs]
  have hverdicts (w₂ : World V R) : verdicts t (xs ++ [⟨true, w₁, w₂⟩]) = vs ++ [v] :=
    (verdicts_concat_none (hnone w₂)).trans hv
  have htold (w₂ : World V R) :
      told t (xs ++ [⟨true, w₁, w₂⟩]) = ts ++ [⟨.wait, g, .ok ()⟩] := (told_own_none hu).trans ht
  subst hresume
  cases hw with
  | mixed hx =>
    apply h.go (hnone _)
    · rfl
    · apply Watch.mixed (hverdicts _) ha hr (htold _)
      exact hsince.concat (hnone _) (mutex_setStage ..)
  | parked hx =>
    apply h.go (hnone _)
    · rfl
    · exact .away (hverdicts _) ha hr (htold _) .parked

theorem own_away {vs : List (Verdict V)} {v : Verdict V} {ts : List Telling} {resume : Resume V}
    (h : Vigil w t c g condition xs w₁) (hs : (w₁.thread t).stage = s)
    (haway : Away c g resume s) (hresume : resume = some (condition, (vs ++ [v]).map (·.shown)))
    (hv : verdicts t xs = vs ++ [v]) (ha : v.again = true) (hr : Rounds g vs ts)
    (ht : told t xs = ts ++ [⟨.wait, g, .ok ()⟩]) (hw : w₁.Step t s w₂) :
    Vigil w t c g condition (xs ++ [⟨true, w₁, w₂⟩]) w₂ := by
  have hnone (w₂ : World V R) : (⟨true, w₁, w₂⟩ : Moment V R).verdict? t = none := by
    apply verdict_own_none
    rw [hs]
    cases haway <;> simp
  have hverdicts (w₂ : World V R) : verdicts t (xs ++ [⟨true, w₁, w₂⟩]) = vs ++ [v] :=
    (verdicts_concat_none (hnone w₂)).trans hv
  cases haway with
  | parked => contradiction
  | rejoining =>
    cases hw with
    | rejoined hf =>
      apply h.go (hnone _)
      · rfl
      · have hu : (w₁.thread t).stage.utters = none := by simp [hs, Stage.utters]
        subst hresume
        exact .away (hverdicts _) ha hr ((told_own_none hu).trans ht) .waking
  | waking =>
    have hu : (w₁.thread t).stage.utters = some (.woken, g) := by simp [hs, Stage.utters]
    have htold {r : Except TraceError Unit} {w₃ : World V R}
        (he : w₁.emit t g.emitter .woken g.name = (r, w₃)) (s : Stage V) :
        told t (xs ++ [⟨true, w₁, w₃.setStage t s⟩]) =
          ts ++ [⟨.wait, g, .ok ()⟩, ⟨.woken, g, r⟩] := by
      rw [told_own hu he, ht]
      simp
    cases hw with
    | woke he => contradiction
    | resumed he =>
      obtain ⟨rfl, rfl⟩ := Prod.mk.inj (Option.some.inj hresume)
      apply h.go (hnone _) (uttered he).2.1
      apply Watch.judging (hverdicts _)
      rw [htold he]
      exact hr.concat ha
    | unwoken he =>
      apply h.go (hnone _) (uttered he).2.1
      exact .unwoken (hverdicts _) ha hr (htold he _)

/-- Each move of the thread carries the wait on. -/
theorem own (h : Vigil w t c g condition xs w₁) (hst : w₁.Stands hist)
    (hw : w₁.Step t (w₁.thread t).stage w₂) :
    Vigil w t c g condition (xs ++ [⟨true, w₁, w₂⟩]) w₂ := by
  have hwatch := h.watch
  generalize hs : (w₁.thread t).stage = s at hwatch hw
  cases hwatch with
  | judging hv hr => exact h.own_judging hst hs hv hr hw
  | waiting hv ha hr hsince => exact h.own_waiting hs rfl hv ha hr hsince hw
  | parking hv ha hr ht hsince => exact h.own_parking hs rfl hv ha hr ht hsince hw
  | away hv ha hr ht haway => exact h.own_away hs haway rfl hv ha hr ht hw
  -- an answer is the end: there is no move from there
  | enough | unslept | mixed | unwoken => contradiction

/-- No record of a wait stands alone. -/
theorem paired (h : Vigil w t c g condition xs w₁) : Paired g (told t xs) := by
  generalize hs : (w₁.thread t).stage = s
  have hwatch := h.watch
  rw [hs] at hwatch
  cases hwatch with
  | judging _ hr | waiting _ _ hr _ | enough _ _ hr _ => exact hr.paired
  | parking _ _ hr ht _ | away _ _ hr ht _ | unslept _ _ hr ht _ | mixed _ _ hr ht _ =>
    rw [ht]
    exact hr.paired.wait _
  | unwoken _ _ hr ht =>
    rw [ht]
    exact hr.paired.woken _

/-- A sleep that could not be recorded is the end of the wait, and has not begun. -/
theorem refused (h : Vigil w t c g condition xs w₁) {e : TraceError}
    (he : ⟨.wait, g, .error e⟩ ∈ told t xs) : (w₁.thread t).stage = .finished (.failed e) ∧
      ∃ v, v.again = true ∧ HeldSince t g.mutex v xs w₁ := by
  have not_mem {vs : List (Verdict V)} {ts : List Telling} (hr : Rounds g vs ts) :
      ⟨.wait, g, .error e⟩ ∉ ts := by
    intro hm
    have hok := hr.isOk hm
    contradiction
  generalize hs : (w₁.thread t).stage = s
  have hwatch := h.watch
  rw [hs] at hwatch
  cases hwatch with
  | judging _ hr | waiting _ _ hr _ | enough _ _ hr _ => exact absurd he (not_mem hr)
  | parking _ _ hr ht _ | away _ _ hr ht _ | mixed _ _ hr ht _ | unwoken _ _ hr ht =>
    simp [ht, not_mem hr] at he
  | unslept _ ha hr ht hsince =>
    simp only [ht, List.mem_append, not_mem hr, List.mem_singleton, Telling.mk.injEq, true_and,
      Except.error.injEq, false_or] at he
    subst he
    exact ⟨rfl, _, ha, hsince⟩

/-- At the end of a wait there have been as many sleeps as the condition wanted. -/
theorem countP_wait {a : Answer V} (h : Vigil w t c g condition xs w₁)
    (hend : (w₁.thread t).stage = .finished a) :
    (told t xs).countP (·.kind = .wait) = (verdicts t xs).countP (·.again) := by
  have hwatch := h.watch
  rw [hend] at hwatch
  cases hwatch with
  | away _ _ _ _ haway => contradiction
  | enough hv ha hr _ => simp [hv, hr.countP_wait, ha]
  | unslept hv ha hr ht _ | mixed hv ha hr ht _ | unwoken hv ha hr ht =>
    simp [hv, ht, hr.countP_wait, ha]

/-- The wait is only satisfied by what it was shown last. -/
theorem satisfied (h : Vigil w t c g condition xs w₁)
    (hok : (w₁.thread t).stage = .finished .ok) :
    ∃ v, v.again = false ∧ HeldSince t g.mutex v xs w₁ := by
  have hwatch := h.watch
  rw [hok] at hwatch
  cases hwatch with
  | away _ _ _ _ haway => contradiction
  | enough _ ha _ hsince => exact ⟨_, ha, hsince⟩

end Vigil

/-- What a wait for a condition promises at every moment of it. The condition is only tested behind
the guard and while the thread has its mutex, and each verdict is its own. No end of a sleep is
recorded but directly behind a record of its beginning. A beginning that could not be recorded ends
the wait with this error, before the mutex was given up since the last verdict. When the wait is
over, with whatever answer, the thread has the mutex again by the same guard, there have been as
many records of sleeps as the condition wanted, and if all went well the last verdict was that it
wants none, and since then the thread has had the mutex and the value is as it was left. -/
structure Contract (w : World V R) (t : ThreadId) (g : Guard) (condition : Condition V)
    (xs : List (Moment V R)) (w' : World V R) : Prop where
  judged : ∀ x ∈ xs, x.Judges t g
  gives : condition.Gives (verdicts t xs)
  paired : Paired g (told t xs)
  refused : ∀ e, ⟨.wait, g, .error e⟩ ∈ told t xs → (w'.thread t).stage = .finished (.failed e) ∧
    ∃ v, v.again = true ∧ HeldSince t g.mutex v xs w'
  guards : (w'.thread t).guards = (w.thread t).guards
  holds : ∀ a, (w'.thread t).stage = .finished a → w'.holder g.mutex = some t
  counts : ∀ a, (w'.thread t).stage = .finished a →
    (told t xs).countP (·.kind = .wait) = (verdicts t xs).countP (·.again)
  satisfied : (w'.thread t).stage = .finished .ok →
    ∃ v, v.again = false ∧ HeldSince t g.mutex v xs w'

variable {drift : R → R → Prop} {w₀ w' : World V R} {hist : List (ThreadId × Guard × Feat V)}
  {slot : Slot}

omit [Recorder R] in
/-- How a wait for a condition begins. -/
theorem begin_waitWhile (hb : w.begin t (.waitWhile c slot condition) = some w₁) :
    ∃ g, w.guard? t slot = some g ∧ w₁ = w.setStage t (.judging c g condition []) := by
  unfold begin at hb
  split at hb
  · obtain ⟨s, hopen, rfl⟩ := Option.map_eq_some_iff.mp hb
    obtain ⟨g, hg, hs⟩ := Option.bind_eq_some_iff.mp hopen
    split at hs
    · contradiction
    · cases hs
      exact ⟨g, hg, rfl⟩
  · contradiction

/-- From its beginning on a wait keeps its vigil. -/
theorem Stretch.vigil (h₀ : w₀.Fresh) (h : Annals drift w₀ hist w₁)
    (hb : w₁ = w.setStage t (.judging c g condition [])) (hs : Stretch drift t w₁ xs w') :
    Vigil w t c g condition xs w' := by
  refine Stretch.invariant h₀ h ?_ ?_ ?_ hs
  · subst hb
    refine ⟨?_, ?_, ?_, ?_⟩
    · rw [thread_setStage_self]
      have hv : verdicts t ([] : List (Moment V R)) = [] := by simp [verdicts]
      exact .judging hv .nil
    · simp
    · simp
    · intro pre v post hsplit
      simp [verdicts] at hsplit
  · intro xs w w' hist' hst h hw
    exact h.own hst hw
  · intro xs w w' hw h
    exact h.beside hw

/-- A wait for a condition keeps its promises, whatever the condition, whatever others do meanwhile,
however often the thread is woken, and whichever records are taken. -/
theorem waitWhile_contract (h₀ : w₀.Fresh) (h : Annals drift w₀ hist w)
    (hb : w.begin t (.waitWhile c slot condition) = some w₁) (hs : Stretch drift t w₁ xs w') :
    ∃ g, w.guard? t slot = some g ∧ Contract w t g condition xs w' := by
  obtain ⟨g, hg, hopening⟩ := begin_waitWhile hb
  have hbegun := h.begin t _ hb
  have hvigil := hs.vigil h₀ hbegun hopening
  refine ⟨g, hg, hvigil.judged, hvigil.gives, hvigil.paired, fun e => hvigil.refused,
    hvigil.guards, ?_, fun a => hvigil.countP_wait, hvigil.satisfied⟩
  intro a ha
  obtain ⟨hist', h'⟩ := hs.exists_annals hbegun
  have hgrasp := (h'.stands h₀).grasp_at ha
  have hkept : (w'.thread t).kept = (w.thread t).kept := by
    rw [Thread.kept, hvigil.guards, Thread.kept]
  have hmem : g ∈ (w.thread t).kept := mem_kept_of_head? ((h.stands h₀).rest t) hg
  rw [← hkept] at hmem
  exact hgrasp.holds g (List.mem_append_left _ hmem) List.not_mem_nil

/-- A world in which nothing has happened yet, and nobody looks at the records. -/
def unwatched : World Nat Desk :=
  { mutexes := ⟨{ value := 0 }, []⟩, recorder := {} }

/-- A thread gets the mutex. -/
def getting : List (ThreadId × Happening Nat) :=
  [(0, .begin (.lock .waits 0 0 "J" 0)), (0, .advance), (0, .advance), (0, .advance),
    (0, .collect)]

/-- It sleeps until the value is no longer zero. Once it wakes for no reason, and sleeps again. Then
another thread changes the value and calls it. -/
def calledTwice : List (ThreadId × Happening Nat) :=
  [(0, .advance), (0, .advance), (0, .advance), (0, .rouse), (0, .advance), (0, .advance),
    (0, .advance), (0, .advance), (1, .begin (.lock .waits 0 0 "J" 0)), (1, .advance),
    (0, .advance), (1, .advance), (1, .advance), (1, .collect), (1, .begin (.access 0 (· + 1))),
    (1, .advance), (1, .collect), (1, .begin (.notifyOne 0)), (1, .advance), (1, .collect),
    (1, .begin (.leave .released 0)), (1, .advance), (1, .advance), (0, .advance), (0, .advance),
    (0, .advance)]

def untilChanged : Condition Nat := fun _ v => (v = 0, v)

theorem waitWhile_contract_calledTwice : unwatched.Fresh ∧ ∃ hist w w₁ xs w',
    Annals Eq unwatched hist w ∧ w.begin 0 (.waitWhile 0 0 untilChanged) = some w₁ ∧
      Stretch Eq 0 w₁ xs w' ∧ (w'.thread 0).stage = .finished .ok ∧
      verdicts 0 xs = [⟨guardJ, 0, true, 0⟩, ⟨guardJ, 0, true, 0⟩, ⟨guardJ, 1, false, 1⟩] ∧
      Contract w 0 guardJ untilChanged xs w' := by
  have h₀ : unwatched.Fresh := ⟨fun _ => rfl, fun _ => rfl⟩
  have hsome : ((unwatched.chronicle? [] getting).bind fun r =>
      (r.2.begin 0 (.waitWhile 0 0 untilChanged)).bind fun w₁ =>
        (w₁.attend? 0 [] calledTwice).map fun r' =>
          (r.2.guard? 0 0, (r'.2.thread 0).stage.answered?, verdicts 0 r'.1)) =
      some (some guardJ, some .ok,
        [⟨guardJ, 0, true, 0⟩, ⟨guardJ, 0, true, 0⟩, ⟨guardJ, 1, false, 1⟩]) := by decide +kernel
  obtain ⟨⟨hist, w⟩, hplay, hsome⟩ := Option.bind_eq_some_iff.mp hsome
  obtain ⟨w₁, hb, hsome⟩ := Option.bind_eq_some_iff.mp hsome
  obtain ⟨⟨xs, w'⟩, hattend, he⟩ := Option.map_eq_some_iff.mp hsome
  simp only [Prod.mk.injEq, Stage.answered?_eq_some] at he
  obtain ⟨hguard, hstage, hverdicts⟩ := he
  have h : Annals Eq unwatched hist w := Annals.start.chronicle hplay
  have hs : Stretch Eq 0 w₁ xs w' := Stretch.start.attend hattend
  refine ⟨h₀, hist, w, w₁, xs, w', h, hb, hs, hstage, hverdicts, ?_⟩
  obtain ⟨g, hg, hcontract⟩ := waitWhile_contract h₀ h hb hs
  rw [hguard, Option.some.injEq] at hg
  rw [hg]
  exact hcontract

end World

end LockTrace
