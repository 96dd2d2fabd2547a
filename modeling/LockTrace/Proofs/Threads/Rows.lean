import LockTrace.Proofs.Threads.Play

namespace LockTrace

variable {V R : Type}

/-- The stage of a sleeper. -/
def Stage.Sleeps : Stage V → Prop
  | .parked .. => True
  | _ => False

/-- The stage after a call that wakes a sleeper: it has to get its mutex back. -/
def Stage.called : Stage V → Stage V
  | .parked c g resume => .rejoining c g resume
  | s => s

namespace World

variable {w w' : World V R} {t : ThreadId}

section Near

@[simp] theorem waiters_tagOf (w : World V R) (t : ThreadId) (c : CondvarId) :
    (w.tagOf t).2.waiters c = w.waiters c := by
  cases h : (w.thread t).tag with
  | some n => rw [tagOf_some w h]
  | none =>
    rw [tagOf_none w h]
    rfl

theorem Near.emit [Recorder R] {e : EmitterId} {k : Kind} {name : LockName}
    {r : Except TraceError Unit} {w₁ : World V R} (he : w.emit t e k name = (r, w₁)) :
    w.Near t w₁ := by
  obtain rfl : (w.emit t e k name).2 = w₁ := by rw [he]
  exact ⟨fun t' ht => thread_tagOf_ne w (Ne.symm ht), fun c => waiters_tagOf w t c⟩

theorem Near.note (h : w.Near t w') (n : Notice) : w.Near t (w'.note n) := ⟨h.thread, h.waiters⟩

theorem Near.closing (h : w.Near t w') (how : Leave) (g : Guard) (r : Except TraceError Unit) :
    w.Near t (w'.closing t how g r) := by
  cases how <;> cases r
  all_goals exact ⟨(h.setStage _).thread, h.waiters⟩

end Near

/-- The rows of the condition variables show who sleeps where, each sleeper once. -/
structure Rows (w : World V R) : Prop where
  mem : ∀ c x, x ∈ w.waiters c ↔
    ∃ g resume, (w.thread x.thread).stage = .parked c g resume ∧ g.mutex = x.mutex
  nodup : ∀ c, (w.waiters c).Nodup

namespace Rows

theorem of_threads (hw : ∀ c, w.waiters c = []) (ht : ∀ t, w.thread t = {}) : w.Rows where
  mem c x := by
    rw [hw, ht]
    exact iff_of_false List.not_mem_nil nofun
  nodup c := hw c ▸ List.nodup_nil

/-- Two sleepers of one row are the same if they are the same thread. -/
theorem eq_of_thread (h : w.Rows) {c : CondvarId} {x y : Waiter} (hx : x ∈ w.waiters c)
    (hy : y ∈ w.waiters c) (he : x.thread = y.thread) : x = y := by
  obtain ⟨g, resume, hs, hm⟩ := (h.mem c x).mp hx
  obtain ⟨g', resume', hs', hm'⟩ := (h.mem c y).mp hy
  rw [he, hs'] at hs
  cases hs
  obtain ⟨t, m⟩ := x
  obtain ⟨t', m'⟩ := y
  obtain rfl : t = t' := he
  obtain rfl : m' = m := hm'.symm.trans hm
  rfl

/-- A thread that neither falls asleep nor wakes leaves the rows as they are. -/
theorem near (h : w.Rows) (hn : w.Near t w') (hs : ¬ (w.thread t).stage.Sleeps)
    (hs' : ¬ (w'.thread t).stage.Sleeps) : w'.Rows where
  mem c x := by
    rw [hn.waiters, h.mem]
    by_cases hx : x.thread = t
    · rw [hx]
      apply iff_of_false
      · rintro ⟨g, resume, he, _⟩
        rw [he] at hs
        exact hs trivial
      · rintro ⟨g, resume, he, _⟩
        rw [he] at hs'
        exact hs' trivial
    · rw [hn.thread _ hx]
  nodup c := hn.waiters c ▸ h.nodup c

/-- A thread falls asleep and goes to the end of the row. -/
theorem park (h : w.Rows) (hn : w.Near t w') (hs : ¬ (w.thread t).stage.Sleeps) (c : CondvarId)
    (g : Guard) (resume : Resume V) :
    ((w'.setWaiters c (w.waiters c ++ [⟨t, g.mutex⟩])).setStage t (.parked c g resume)).Rows where
  mem c' x := by
    have hrow : ((w'.setWaiters c (w.waiters c ++ [⟨t, g.mutex⟩])).setStage t
        (.parked c g resume)).waiters c' =
        if c = c' then w.waiters c ++ [⟨t, g.mutex⟩] else w.waiters c' := by
      rw [← hn.waiters c']
      exact Table.get_set ..
    have hnone {c' : CondvarId} (hx : x.thread = t) : x ∉ w.waiters c' := by
      intro hm
      obtain ⟨_, _, he, _⟩ := (h.mem c' x).mp hm
      rw [hx] at he
      rw [he] at hs
      exact hs trivial
    rw [hrow]
    by_cases hx : x.thread = t
    · rw [hx, thread_setStage_self]
      obtain ⟨t', m⟩ := x
      obtain rfl : t' = t := hx
      split
      · rename_i hc
        subst hc
        simp [hnone, eq_comm]
      · rename_i hc
        simp [hnone, hc]
    · rw [thread_setStage_ne _ (Ne.symm hx)]
      change _ ↔ ∃ g resume, (w'.thread x.thread).stage = .parked c' g resume ∧ g.mutex = x.mutex
      rw [hn.thread _ hx, ← h.mem]
      split
      · rename_i hc
        subst hc
        rw [List.mem_append, List.mem_singleton]
        refine or_iff_left ?_
        rintro rfl
        exact hx rfl
      · rfl
  nodup c' := by
    have hrow : ((w'.setWaiters c (w.waiters c ++ [⟨t, g.mutex⟩])).setStage t
        (.parked c g resume)).waiters c' =
        if c = c' then w.waiters c ++ [⟨t, g.mutex⟩] else w.waiters c' := by
      rw [← hn.waiters c']
      exact Table.get_set ..
    rw [hrow]
    split
    · refine List.nodup_append.mpr ⟨h.nodup c, List.nodup_singleton _, ?_⟩
      rintro x hx y hy rfl
      obtain rfl := List.mem_singleton.mp hy
      obtain ⟨_, _, he, _⟩ := (h.mem c _).mp hx
      rw [he] at hs
      exact hs trivial
    · exact h.nodup c'

section Call

variable {c : CondvarId} {ws xs : List Waiter}

/-- Of a row some sleepers are called. They have to get their mutexes back, and all other threads
stay as they are. -/
theorem thread_call (h : w.Rows) (hx : ∀ x ∈ xs, x ∈ w.waiters c) (t : ThreadId) :
    ((w.setWaiters c ws).rouseAll xs).thread t =
      if ∃ x ∈ xs, x.thread = t then { w.thread t with stage := (w.thread t).stage.called }
      else w.thread t := by
  split
  · rename_i hcalled
    obtain ⟨x, hm, rfl⟩ := hcalled
    obtain ⟨g, resume, he, _⟩ := (h.mem c x).mp (hx x hm)
    rw [thread_rouseAll_of_mem (w := w.setWaiters c ws) ⟨x, hm, rfl⟩ he, he]
    rfl
  · rename_i hcalled
    exact thread_rouseAll_of_notMem fun x hm ht => hcalled ⟨x, hm, ht⟩

theorem called_not_sleeps (s : Stage V) : ¬ s.called.Sleeps := by
  cases s <;> exact id

/-- The row is divided into those that are called and those that sleep on. -/
theorem call (h : w.Rows) (hx : ∀ x, x ∈ w.waiters c ↔ x ∈ ws ∨ x ∈ xs)
    (hd : ∀ x ∈ ws, x ∉ xs) (hn : ws.Nodup) : ((w.setWaiters c ws).rouseAll xs).Rows where
  mem c' x := by
    have hxs : ∀ x ∈ xs, x ∈ w.waiters c := fun x hm => (hx x).mpr (.inr hm)
    have hrow : (w.setWaiters c ws).waiters c' = if c = c' then ws else w.waiters c' :=
      Table.get_set ..
    rw [waiters_rouseAll, hrow, h.thread_call hxs]
    split
    · rename_i hc
      subst hc
      split
      · rename_i hcalled
        obtain ⟨y, hy, ht⟩ := hcalled
        apply iff_of_false
        · intro hm
          obtain rfl := h.eq_of_thread ((hx x).mpr (.inl hm)) (hxs y hy) ht.symm
          exact hd x hm hy
        · rintro ⟨g, resume, he, _⟩
          have hsleeps := called_not_sleeps (w.thread x.thread).stage
          rw [show (w.thread x.thread).stage.called = _ from he] at hsleeps
          exact hsleeps trivial
      · rename_i hcalled
        rw [← h.mem, hx]
        refine (or_iff_left ?_).symm
        intro hm
        exact hcalled ⟨x, hm, rfl⟩
    · rename_i hc
      rw [h.mem]
      split
      · rename_i hcalled
        obtain ⟨y, hy, ht⟩ := hcalled
        obtain ⟨g, resume, he, _⟩ := (h.mem c y).mp (hxs y hy)
        rw [ht] at he
        rw [he]
        apply iff_of_false
        · rintro ⟨_, _, he', _⟩
          cases he'
          exact hc rfl
        · nofun
      · rfl
  nodup c' := by
    have hrow : (w.setWaiters c ws).waiters c' = if c = c' then ws else w.waiters c' :=
      Table.get_set ..
    rw [waiters_rouseAll, hrow]
    split
    · exact hn
    · exact h.nodup c'

/-- All sleepers are called. -/
theorem callAll (h : w.Rows) (c : CondvarId) :
    ((w.setWaiters c []).rouseAll (w.waiters c)).Rows :=
  h.call (by simp) (by simp) List.nodup_nil

theorem callOne (h : w.Rows) {x : Waiter} (hx : x ∈ w.waiters c) :
    ((w.setWaiters c ((w.waiters c).erase x)).rouseAll [x]).Rows := by
  refine h.call (fun y => ?_) (fun y hy => ?_) ((h.nodup c).erase x)
  · rw [(h.nodup c).mem_erase_iff, List.mem_singleton]
    by_cases hy : y = x
    · simp [hy, hx]
    · simp [hy]
  · rw [List.mem_singleton]
    exact ((h.nodup c).mem_erase_iff.mp hy).1

end Call

theorem step [Recorder R] (h : w.Rows) {s : Stage V} (he : (w.thread t).stage = s)
    (hs : w.Step t s w') : w'.Rows := by
  -- the stage of a thread that goes on in its own right is none of a sleeper
  have stage {w₁ : World V R} {s' : Stage V} (hn : w.Near t w₁) (hs : ¬ s.Sleeps)
      (hs' : ¬ s'.Sleeps) : (w₁.setStage t s').Rows := by
    apply h.near (hn.setStage s') (he ▸ hs)
    rw [thread_setStage_self]
    exact hs'
  have called {w₁ : World V R} (h₁ : w₁.Rows) (hs₁ : ¬ (w₁.thread t).stage.Sleeps)
      (a : Answer V) : (w₁.finish t a).Rows := by
    apply h₁.near (Near.refl.setStage _) hs₁
    rw [thread_setStage_self]
    exact id
  have awake {c : CondvarId} {ws xs : List Waiter} (hxs : ∀ x ∈ xs, x ∈ w.waiters c)
      (hs : ¬ s.Sleeps) : ¬ (((w.setWaiters c ws).rouseAll xs).thread t).stage.Sleeps := by
    rw [h.thread_call hxs]
    split
    · exact called_not_sleeps _
    · exact he ▸ hs
  cases hs with
  | emitted he' | attempted he' | unattempted he' | unrecorded he' | refused he' | unrefused he'
  | left he' | slept he' | unslept he' | woke he' | resumed he' | unwoken he' =>
    exact stage (.emit he') id id
  | recorded he' => exact stage ((Near.emit he').setGuards ..) id id
  | occupied | mixed | notifiedNobody => exact stage .refl id id
  | poisoned | acquired | rejoined | yielded | accessed | again | enough =>
    exact stage (Near.refl.setMutex ..) id id
  | @freed how g r =>
    refine h.near ((Near.refl.setMutex ..).closing how g r) (he ▸ id) ?_
    cases how <;> cases r
    all_goals
      rw [closing, finish, thread_setStage_self]
      exact id
  | parked => exact h.park (Near.refl.setMutex ..) (he ▸ id) _ _ _
  | notifiedAll => exact called (h.callAll _) (awake (fun _ hx => hx) id) _
  | notifiedOne hx =>
    exact called (h.callOne hx) (awake (fun _ hy => List.mem_singleton.mp hy ▸ hx) id) _
  | tagged => exact stage ⟨fun _ ht => thread_tagOf_ne w (Ne.symm ht), fun c => by simp⟩ id id

theorem begin (h : w.Rows) {call : Call V} (hb : w.begin t call = some w') : w'.Rows := by
  unfold World.begin at hb
  split at hb
  · rename_i hs
    obtain ⟨s, hopen, rfl⟩ := Option.map_eq_some_iff.mp hb
    have hawake : ¬ s.Sleeps := by
      cases call with
      | emit e k label | lock p e m label slot =>
        cases hopen
        split <;> exact id
      | leave how slot | access slot change =>
        obtain ⟨g, _, rfl⟩ := Option.map_eq_some_iff.mp hopen
        exact id
      | wait c slot | waitWhile c slot condition =>
        obtain ⟨g, _, hopen⟩ := Option.bind_eq_some_iff.mp hopen
        split at hopen
        · contradiction
        · cases hopen
          exact id
      | notifyOne c | notifyAll c | tag =>
        cases hopen
        exact id
    have hbegun {w₁ : World V R} (hn : w.Near t w₁) : (w₁.setStage t s).Rows := by
      refine h.near (hn.setStage s) (by rw [hs]; exact id) ?_
      rw [thread_setStage_self]
      exact hawake
    cases call with
    | leave how slot => exact hbegun (Near.refl.setGuards ..)
    | emit | lock | access | wait | waitWhile | notifyOne | notifyAll | tag => exact hbegun .refl
  · contradiction

theorem setIdle (h : w.Rows) (hs : ¬ (w.thread t).stage.Sleeps) : (w.setStage t .idle).Rows := by
  refine h.near (Near.refl.setStage _) hs ?_
  rw [thread_setStage_self]
  exact id

/-- What a sleeper does that wakes by itself: it leaves its row, and has to get its mutex back. -/
theorem rouse (h : w.Rows) (hr : w.rouse t = some w') :
    ∃ c g resume, (w.thread t).stage = .parked c g resume ∧
      w' = (w.setWaiters c ((w.waiters c).erase ⟨t, g.mutex⟩)).rouseAll [⟨t, g.mutex⟩] ∧
      ⟨t, g.mutex⟩ ∈ w.waiters c := by
  unfold World.rouse at hr
  split at hr
  · rename_i c g resume hs
    cases hr
    have hx : ⟨t, g.mutex⟩ ∈ w.waiters c := (h.mem c _).mpr ⟨g, resume, hs, rfl⟩
    have hone : (w.waiters c).filter (·.thread = t) = [⟨t, g.mutex⟩] := by
      have hmem (y : Waiter) : y ∈ (w.waiters c).filter (·.thread = t) ↔ y = ⟨t, g.mutex⟩ := by
        rw [List.mem_filter, decide_eq_true_eq]
        constructor
        · rintro ⟨hy, ht⟩
          exact h.eq_of_thread hy hx ht
        · rintro rfl
          exact ⟨hx, rfl⟩
      apply List.perm_singleton.mp
      refine (List.perm_ext_iff_of_nodup ((h.nodup c).filter _) (List.nodup_singleton _)).mpr ?_
      simpa using hmem
    have hrest : (w.waiters c).filter (·.thread ≠ t) = (w.waiters c).erase ⟨t, g.mutex⟩ := by
      rw [(h.nodup c).erase_eq_filter]
      refine List.filter_congr fun y hy => ?_
      have hiff : y.thread = t ↔ y = ⟨t, g.mutex⟩ := by
        constructor
        · exact h.eq_of_thread hy hx
        · rintro rfl
          rfl
      simp only [ne_eq, hiff]
      by_cases hy' : y = ⟨t, g.mutex⟩ <;> simp [hy']
    refine ⟨c, g, resume, hs, ?_, hx⟩
    rw [hone, hrest]
  · contradiction

end Rows

end World

end LockTrace
