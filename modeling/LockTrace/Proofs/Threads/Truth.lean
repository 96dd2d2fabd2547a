import LockTrace.Proofs.Threads.Stream

namespace LockTrace

open scoped List

variable {V R : Type}

/-- The record that goes directly before one of this kind, if that is an answer. -/
def Kind.prompt? : Kind → Option Kind
  | .acquired | .tryFailed => some .attempt
  | .woken => some .wait
  | .attempt | .released | .wait => none

/-- Every answer in the records of a thread comes directly after what it answers. -/
def Prompted (rs : List (Kind × LockName)) : Prop :=
  ∀ pre k name post k', rs = pre ++ (k, name) :: post → k.prompt? = some k' →
    pre.getLast? = some (k', name)

/-- The records of a thread answer what was asked, and release no more than was acquired. -/
structure Truthful (rs : List (Kind × LockName)) : Prop where
  prompted : Prompted rs
  backed : ∀ name, rs.count (.released, name) ≤ rs.count (.acquired, name)

theorem truthful_nil : Truthful [] where
  prompted pre _ _ _ _ heq := by simp at heq
  backed _ := Nat.le_refl 0

theorem Prompted.append {rs : List (Kind × LockName)} (h : Prompted rs) {k : Kind}
    {name : LockName} (hk : ∀ k', k.prompt? = some k' → rs.getLast? = some (k', name)) :
    Prompted (rs ++ [(k, name)]) := by
  intro pre k₁ name₁ post k' heq hp
  rcases split_append_singleton heq with ⟨rfl, hr, rfl⟩ | ⟨post', rfl, hrs⟩
  · cases hr
    exact hk k' hp
  · exact h pre k₁ name₁ post' k' hrs hp

/-- All guards that a stage works with. -/
def View.guards (v : View) : List Guard := v.carried ++ v.wanted ++ v.borrowed ++ v.away.toList

/-- The guard whose release is about to be recorded. -/
def Stage.pledged : Stage V → List Guard
  | .leaving _ g => [g]
  | _ => []

/-- A stage that can follow another one without a record. -/
structure Stage.Under (s' s : Stage V) : Prop where
  traced : ∀ e k name, s' ≠ .emitting e k name
  guards : s'.view.guards ⊆ s.view.guards
  asked : ∀ name ∈ s'.view.asked, name ∈ s.view.asked
  away : ∀ g ∈ s'.view.away, g ∈ s.view.away
  pledged : s'.pledged = []

/-- A stage that can follow a record. -/
structure Stage.Upon (s : Stage V) (k : Kind) (g : Guard) : Prop where
  traced : ∀ e k name, s ≠ .emitting e k name
  guards : s.view.guards ⊆ [g]
  asked : ∀ name ∈ s.view.asked, k = .attempt ∧ name = g.name
  away : ∀ g' ∈ s.view.away, k = .wait ∧ g' = g
  pledged : s.pledged = []

theorem Stage.under_finished (a : Answer V) (s : Stage V) : (Stage.finished a).Under s :=
  ⟨fun _ _ _ => nofun, List.nil_subset _, nofun, nofun, rfl⟩

theorem Stage.upon_finished (a : Answer V) (k : Kind) (g : Guard) : (Stage.finished a).Upon k g :=
  ⟨fun _ _ _ => nofun, List.nil_subset _, nofun, nofun, rfl⟩

/-- Calls of locks and condition variables that all go through one emitter. -/
def Call.Through (e : EmitterId) : Call V → Prop
  | .emit .. => False
  | .lock _ e' _ _ _ => e' = e
  | _ => True

/-- What a thread has recorded through an emitter accounts for where it stands: it has asked for
what it waits for, it has said that it sleeps, and for each of its guards it has recorded an
acquisition without a release. -/
structure Candid (e : EmitterId) (th : Thread V) (rs : List (Kind × LockName)) : Prop where
  rest : th.guards.rest = []
  traced : ∀ e k name, th.stage ≠ .emitting e k name
  through : ∀ g ∈ th.kept ++ th.stage.view.guards, g.emitter = e
  asked : ∀ name ∈ th.stage.view.asked, rs.getLast? = some (.attempt, name)
  away : ∀ g ∈ th.stage.view.away, rs.getLast? = some (.wait, g.name)
  truthful : ∀ pre, pre <+: rs → Truthful pre
  backed : ∀ name, rs.count (.released, name) +
    ((th.kept ++ th.stage.pledged).map (·.name)).count name ≤ rs.count (.acquired, name)

namespace Candid

variable {e : EmitterId} {th th' : Thread V} {rs : List (Kind × LockName)} {k : Kind} {g : Guard}

theorem start : Candid e ({} : Thread V) [] where
  rest := rfl
  traced _ _ _ := nofun
  through _ hg := absurd hg List.not_mem_nil
  asked _ := nofun
  away _ := nofun
  truthful _ hp := List.prefix_nil.mp hp ▸ truthful_nil
  backed _ := Nat.le_refl 0

theorem roused (h : Candid e th rs) (hr : World.Roused th th') : Candid e th' rs := by
  rcases hr with rfl | ⟨c, g, resume, hs, rfl⟩
  · exact h
  · have hv : th.stage.view = (Stage.rejoining c g resume : Stage V).view := by rw [hs]; rfl
    have hp : th.stage.pledged = (Stage.rejoining c g resume : Stage V).pledged := by rw [hs]; rfl
    exact ⟨h.rest, fun _ _ _ => nofun, hv ▸ h.through, hv ▸ h.asked, hv ▸ h.away, h.truthful,
      hp ▸ h.backed⟩

theorem emitter (h : Candid e th rs) (hg : g ∈ th.stage.view.guards) : g.emitter = e :=
  h.through g (List.mem_append_right _ hg)

/-- A thread goes on to a stage that asks for no more of its records. -/
theorem become (h : Candid e th rs) (hg : th'.guards = th.guards)
    (hs : th'.stage.Under th.stage) : Candid e th' rs := by
  have hk : th'.kept = th.kept := congrArg (fun gs => gs.entries.flatMap (·.2)) hg
  refine ⟨hg ▸ h.rest, hs.traced, fun g hm => ?_, fun name hn => h.asked name (hs.asked name hn),
    fun g hn => h.away g (hs.away g hn), h.truthful, fun name => ?_⟩
  · rcases List.mem_append.mp hm with hm | hm
    · exact h.through g (List.mem_append_left _ (hk ▸ hm))
    · exact h.emitter (hs.guards hm)
  · have hb := h.backed name
    rw [List.map_append, List.count_append] at hb
    rw [hs.pledged, List.append_nil, hk]
    omega

end Candid

theorem Stage.guards_of_utters {s : Stage V} {k : Kind} {g : Guard}
    (hu : s.utters = some (k, g)) :
    s.view.guards = [g] ∧ s.pledged = if k = .released then [g] else [] := by
  cases s
  all_goals cases hu
  all_goals exact ⟨rfl, rfl⟩

theorem count_append_record (rs : List (Kind × LockName)) (k k' : Kind) (name name' : LockName) :
    (rs ++ [(k, name)]).count (k', name') =
      rs.count (k', name') + if k = k' ∧ name = name' then 1 else 0 := by
  rw [List.count_append, List.count_singleton]
  simp

namespace Candid

variable {e : EmitterId} {th th' : Thread V} {rs : List (Kind × LockName)} {k : Kind} {g : Guard}

/-- What a stage answers is what the thread has recorded last. -/
theorem prompt_eq (h : Candid e th rs) (hu : th.stage.utters = some (k, g)) {k' : Kind}
    (hk : k.prompt? = some k') : rs.getLast? = some (k', g.name) := by
  cases hs : th.stage
  all_goals
    rw [hs] at hu
    cases hu
  all_goals cases hk
  case recording | refusing => exact h.asked g.name (by rw [hs]; rfl)
  case waking => exact h.away g (by rw [hs]; rfl)

/-- Each guard is still accounted for after a record: an acquisition comes with a new guard, and a
release with the end of one. -/
theorem backed_append (h : Candid e th rs) (hu : th.stage.utters = some (k, g))
    {kept : List Guard} (hk : kept ~ if k = .acquired then g :: th.kept else th.kept)
    (name : LockName) : (rs ++ [(k, g.name)]).count (.released, name) +
      (kept.map (·.name)).count name ≤ (rs ++ [(k, g.name)]).count (.acquired, name) := by
  have hb := h.backed name
  have hc : (kept.map (·.name)).count name = (th.kept.map (·.name)).count name +
      if k = .acquired ∧ g.name = name then 1 else 0 := by
    rw [(hk.map (·.name)).count_eq name]
    by_cases ha : k = .acquired
    · simp [ha, List.count_cons]
    · simp [ha]
  have hp : (th.stage.pledged.map (·.name)).count name =
      if k = .released ∧ g.name = name then 1 else 0 := by
    rw [(Stage.guards_of_utters hu).2]
    by_cases hr : k = .released
    · simp [hr, List.count_singleton]
    · simp [hr]
  rw [List.map_append, List.count_append, hp] at hb
  rw [hc, count_append_record, count_append_record]
  omega

/-- A thread records what its stage has to say, and keeps what it has acquired by that. -/
theorem tell (h : Candid e th rs) (hu : th.stage.utters = some (k, g))
    (rest : th'.guards.rest = [])
    (kept : th'.kept ~ if k = .acquired then g :: th.kept else th.kept)
    (hs : th'.stage.Upon k g) : Candid e th' (rs ++ [(k, g.name)]) := by
  have hb := h.backed_append hu kept
  have hg : g.emitter = e := by
    apply h.emitter
    rw [(Stage.guards_of_utters hu).1]
    exact List.mem_singleton_self g
  refine ⟨rest, hs.traced, fun g' hm => ?_, fun name hn => ?_, fun g' hn => ?_,
    fun pre hp => ?_, fun name => ?_⟩
  · rcases List.mem_append.mp hm with hm | hm
    · have hm := kept.subset hm
      split at hm
      · rcases List.mem_cons.mp hm with rfl | hm
        · exact hg
        · exact h.through g' (List.mem_append_left _ hm)
      · exact h.through g' (List.mem_append_left _ hm)
    · rw [List.mem_singleton.mp (hs.guards hm)]
      exact hg
  · obtain ⟨rfl, rfl⟩ := hs.asked name hn
    exact List.getLast?_concat
  · obtain ⟨rfl, rfl⟩ := hs.away g' hn
    exact List.getLast?_concat
  · rcases List.prefix_concat_iff.mp hp with rfl | hp
    · refine ⟨?_, fun name => Nat.le_of_add_right_le (hb name)⟩
      exact (h.truthful rs (List.prefix_refl rs)).prompted.append fun _ => h.prompt_eq hu
    · exact h.truthful pre hp
  · rw [hs.pledged, List.append_nil]
    exact hb name

/-- A guard leaves its slot, and its release is the next thing to record. -/
theorem pop (h : Candid e th rs) (hs : th.stage = .idle) {slot : Slot} {how : Leave}
    (hg : (th.guards.get slot).head? = some g) :
    Candid e ({ th with
      guards := th.guards.set slot (th.guards.get slot).tail, stage := .leaving how g } :
        Thread V) rs := by
  have hk := kept_pop h.rest hg
  have hp : ({ th with guards := th.guards.set slot (th.guards.get slot).tail } :
      Thread V).kept ++ [g] ~ th.kept := (List.perm_append_singleton ..).trans hk
  refine ⟨h.rest, fun _ _ _ => nofun, fun x hx => ?_, nofun, nofun, h.truthful, fun name => ?_⟩
  · exact h.through x (List.mem_append_left _ (hp.subset hx))
  · have hb := h.backed name
    have hnil : (Stage.idle : Stage V).pledged = [] := rfl
    rw [hs, hnil, List.append_nil, ← (hp.map (·.name)).count_eq name] at hb
    exact hb

end Candid

namespace World

variable {e : EmitterId} {w w' : World V R} {t t' : ThreadId} {rs : List (Kind × LockName)}

section Step

variable [Recorder R]

/-- What a thread adds to its records by the next move. -/
def uttering (w : World V R) (t : ThreadId) : List (Kind × LockName) :=
  match (w.thread t).stage.utters with
  | some (k, g) => if w.taken t k g then [(k, g.name)] else []
  | none => []

variable {s s' : Stage V} {w₁ : World V R} {k : Kind} {g : Guard}

/-- A thread goes on without a record. -/
theorem candid_quiet (h : Candid e (w.thread t) rs) (hs : (w.thread t).stage = s)
    (hu : s.utters = none) (hg : (w₁.thread t).guards = (w.thread t).guards) (hs' : s'.Under s) :
    Candid e ((w₁.setStage t s').thread t) (rs ++ w.uttering t) := by
  have hnil : w.uttering t = [] := by rw [uttering, hs, hu]
  rw [hnil, List.append_nil, thread_setStage_self]
  exact h.become hg (hs ▸ hs')

/-- The record of a thread is refused, and it goes on all the same. -/
theorem candid_refused (h : Candid e (w.thread t) rs) (hs : (w.thread t).stage = s)
    (hu : s.utters = some (k, g)) {err : TraceError}
    (he : w.emit t g.emitter k g.name = (.error err, w₁)) (hs' : s'.Under s) :
    Candid e ((w₁.setStage t s').thread t) (rs ++ w.uttering t) := by
  obtain ⟨_, hg, _, ht⟩ := uttered he
  have hnil : w.uttering t = [] := by
    rw [uttering, hs, hu]
    exact if_neg (by rw [ht]; exact Bool.false_ne_true)
  rw [hnil, List.append_nil, thread_setStage_self]
  exact h.become hg (hs ▸ hs')

theorem uttering_of_taken (hu : (w.thread t).stage.utters = some (k, g))
    (he : w.emit t g.emitter k g.name = (.ok (), w₁)) : w.uttering t = [(k, g.name)] := by
  obtain ⟨_, _, _, ht⟩ := uttered he
  rw [uttering, hu]
  exact if_pos ht

/-- The record of a thread is taken. -/
theorem candid_told (h : Candid e (w.thread t) rs) (hs : (w.thread t).stage = s)
    (hu : s.utters = some (k, g)) (hk : k ≠ .acquired)
    (he : w.emit t g.emitter k g.name = (.ok (), w₁)) (hs' : s'.Upon k g) :
    Candid e ((w₁.setStage t s').thread t) (rs ++ w.uttering t) := by
  have hg := (uttered he).2.1
  have hkept : ({ w₁.thread t with stage := s' } : Thread V).kept = (w.thread t).kept :=
    congrArg (fun gs => gs.entries.flatMap (·.2)) hg
  rw [uttering_of_taken (by rw [hs, hu]) he, thread_setStage_self]
  refine h.tell (by rw [hs, hu]) ?_ ?_ hs'
  · rw [hg]
    exact h.rest
  · rw [if_neg hk, hkept]

/-- The acquisition is recorded, and the guard is kept. -/
theorem candid_recorded {slot : Slot} (h : Candid e (w.thread t) rs)
    (hs : (w.thread t).stage = .recording g slot)
    (he : w.emit t g.emitter .acquired g.name = (.ok (), w₁)) :
    Candid e (((w₁.keep t g slot).finish t .ok).thread t) (rs ++ w.uttering t) := by
  have hg := (uttered he).2.1
  have hslot : w₁.guards t slot = (w.thread t).guards.get slot := by rw [guards, hg]
  rw [uttering_of_taken (by rw [hs]; rfl) he, finish, thread_setStage_self, keep,
    thread_setGuards_self, hslot, hg]
  refine h.tell (by rw [hs]; rfl) h.rest ?_ (Stage.upon_finished ..)
  exact kept_push h.rest slot g

/-- What a thread adds to its records accounts for where it stands afterwards. -/
theorem Step.candid (h : Candid e (w.thread t) rs) (hs : (w.thread t).stage = s)
    (hw : w.Step t s w') : Candid e (w'.thread t) (rs ++ w.uttering t) := by
  have finished (a : Answer V) := Stage.under_finished a s
  have roused (c : CondvarId) (ws xs : List Waiter) :
      (((w.setWaiters c ws).rouseAll xs).thread t).guards = (w.thread t).guards :=
    guards_roused (thread_rouseAll (w.setWaiters c ws) xs t)
  cases hw with
  | emitted => exact (h.traced _ _ _ hs).elim
  | attempted he =>
    exact candid_told h hs rfl nofun he ⟨fun _ _ _ => nofun, by simp [Stage.view, View.guards],
      by simp [Stage.view], nofun, rfl⟩
  | unattempted he => exact candid_refused h hs rfl he (finished _)
  | occupied hf =>
    exact candid_quiet h hs rfl rfl ⟨fun _ _ _ => nofun, fun _ hm => hm, fun _ hn => hn, nofun, rfl⟩
  | poisoned hf hp =>
    exact candid_quiet h hs rfl rfl ⟨fun _ _ _ => nofun, fun _ hm => hm, nofun, nofun, rfl⟩
  | acquired hf hp =>
    exact candid_quiet h hs rfl rfl ⟨fun _ _ _ => nofun, fun _ hm => hm, fun _ hn => hn, nofun, rfl⟩
  | recorded he => exact candid_recorded h hs he
  | unrecorded he =>
    exact candid_refused h hs rfl he ⟨fun _ _ _ => nofun, fun _ hm => hm, nofun, nofun, rfl⟩
  | yielded => exact candid_quiet h hs rfl rfl (finished _)
  | refused he => exact candid_told h hs rfl nofun he (Stage.upon_finished ..)
  | unrefused he => exact candid_refused h hs rfl he (finished _)
  | @left how g r w₁ he =>
    cases r with
    | ok =>
      exact candid_told h hs rfl nofun he ⟨fun _ _ _ => nofun, fun _ hm => hm, nofun, nofun, rfl⟩
    | error =>
      exact candid_refused h hs rfl he ⟨fun _ _ _ => nofun, fun _ hm => hm, nofun, nofun, rfl⟩
  | @freed how g r =>
    cases how <;> cases r <;> exact candid_quiet h hs rfl rfl (finished _)
  | accessed hv => exact candid_quiet h hs rfl rfl (finished _)
  | again hv =>
    exact candid_quiet h hs rfl rfl ⟨fun _ _ _ => nofun, fun _ hm => hm, nofun, nofun, rfl⟩
  | enough hv => exact candid_quiet h hs rfl rfl (finished _)
  | slept he =>
    exact candid_told h hs rfl nofun he ⟨fun _ _ _ => nofun, by simp [Stage.view, View.guards],
      nofun, by simp [Stage.view], rfl⟩
  | unslept he => exact candid_refused h hs rfl he (finished _)
  | mixed hx => exact candid_quiet h hs rfl rfl (finished _)
  | parked hx =>
    exact candid_quiet h hs rfl rfl ⟨fun _ _ _ => nofun, fun _ hm => hm, nofun, fun _ hg => hg, rfl⟩
  | rejoined hf =>
    exact candid_quiet h hs rfl rfl ⟨fun _ _ _ => nofun, fun _ hm => hm, nofun, fun _ hg => hg, rfl⟩
  | woke he => exact candid_told h hs rfl nofun he (Stage.upon_finished ..)
  | resumed he =>
    exact candid_told h hs rfl nofun he ⟨fun _ _ _ => nofun, fun _ hm => hm, nofun, nofun, rfl⟩
  | unwoken he => exact candid_refused h hs rfl he (finished _)
  | notifiedAll => exact candid_quiet h hs rfl (roused ..) (finished _)
  | notifiedNobody => exact candid_quiet h hs rfl rfl (finished _)
  | notifiedOne => exact candid_quiet h hs rfl (roused ..) (finished _)
  | tagged =>
    obtain ⟨n, _, hn⟩ := exists_thread_tagOf w t
    exact candid_quiet h hs rfl (by rw [hn]) (finished _)

end Step

/-- A call that begins works with a guard of its thread, or asks for one of the emitter. -/
theorem candid_begin {call : Call V} (h : Candid e (w.thread t) rs) (hc : call.Through e)
    (hb : w.begin t call = some w') : Candid e (w'.thread t) rs := by
  unfold begin at hb
  split at hb
  · rename_i hs
    have start {s : Stage V} (traced : ∀ e k name, s ≠ .emitting e k name)
        (hg : ∀ g ∈ s.view.guards, g.emitter = e) (ha : s.view.asked = none)
        (hw : s.view.away = none) (hp : s.pledged = []) :
        Candid e ((w.setStage t s).thread t) rs := by
      rw [thread_setStage_self]
      refine ⟨h.rest, traced, fun g hm => ?_, ?_, ?_, h.truthful, ?_⟩
      · rcases List.mem_append.mp hm with hm | hm
        · exact h.through g (List.mem_append_left _ hm)
        · exact hg g hm
      · intro name hm
        rw [ha] at hm
        contradiction
      · intro g hm
        rw [hw] at hm
        contradiction
      · have hb := h.backed
        rw [hs] at hb
        rw [hp]
        exact hb
    have done (a : Answer V) : Candid e ((w.setStage t (.finished a)).thread t) rs :=
      start (by intro _ _ _ _; contradiction) (List.forall_mem_nil _) rfl rfl rfl
    have kept {slot : Slot} {g : Guard} (hg : w.guard? t slot = some g) : g.emitter = e :=
      h.through g (List.mem_append_left _ (mem_kept_of_head? h.rest hg))
    cases call with
    | emit => exact hc.elim
    | lock patience e' m label slot =>
      obtain rfl : e' = e := hc
      simp only [opening] at hb
      cases hl : LockName.ofString? label with
      | none =>
        rw [hl] at hb
        cases hb
        exact done _
      | some name =>
        rw [hl] at hb
        cases hb
        exact start (by intro _ _ _ _; contradiction) (by simp [Stage.view, View.guards]) rfl rfl
          rfl
    | leave how slot =>
      cases hg : w.guard? t slot with
      | none => simp [opening, hg] at hb
      | some g =>
        simp only [opening, hg] at hb
        cases hb
        rw [thread_setStage_self, thread_setGuards_self]
        exact h.pop hs hg
    | access slot change =>
      cases hg : w.guard? t slot with
      | none => simp [opening, hg] at hb
      | some g =>
        simp only [opening, hg] at hb
        cases hb
        exact start (by intro _ _ _ _; contradiction) (List.forall_mem_nil _) rfl rfl rfl
    | wait c slot | waitWhile c slot condition =>
      cases hg : w.guard? t slot with
      | none => simp [opening, hg] at hb
      | some g =>
        simp only [opening, hg, Option.bind_some] at hb
        split at hb
        · contradiction
        · cases hb
          exact start (by intro _ _ _ _; contradiction)
            (fun _ hm => List.mem_singleton.mp hm ▸ kept hg) rfl rfl rfl
    | notifyOne c | notifyAll c | tag =>
      cases hb
      exact start (by intro _ _ _ _; contradiction) (List.forall_mem_nil _) rfl rfl rfl
  · contradiction

theorem candid_collect {a : Answer V} (h : Candid e (w.thread t) rs)
    (hc : w.collect t = some (a, w')) : Candid e (w'.thread t) rs := by
  unfold collect at hc
  split at hc
  · cases hc
    rw [thread_setStage_self]
    exact h.become rfl ⟨fun _ _ _ => nofun, List.nil_subset _, nofun, nofun, rfl⟩
  · contradiction

end World

/-- The record if it is one of the thread. -/
def own? (t : ThreadId) (r : ThreadId × Kind × LockName) : Option (Kind × LockName) :=
  if r.1 = t then some r.2 else none

/-- The records of one thread among those that some things tell. -/
def own {α : Type} (told? : α → Option (ThreadId × Kind × LockName)) (t : ThreadId)
    (xs : List α) : List (Kind × LockName) :=
  (xs.filterMap told?).filterMap (own? t)

theorem own_append {α : Type} (told? : α → Option (ThreadId × Kind × LockName)) (t : ThreadId)
    (xs : List α) (x : α) :
    own told? t (xs ++ [x]) = own told? t xs ++ ((told? x).bind (own? t)).toList := by
  rw [own, List.filterMap_append, List.filterMap_append, ← own, List.filterMap_cons]
  cases told? x with
  | none => rfl
  | some r =>
    rw [Option.bind_some, List.filterMap_nil, List.filterMap_cons]
    cases own? t r <;> rfl

namespace World

variable {e : EmitterId} {w₀ w w' : World V R} {t : ThreadId} {ds : List Deed} [Recorder R]

theorem own_deed? (w' : World V R) (t' : ThreadId) :
    own Deed.told? t' (ds ++ (w.deed? t w').toList) =
      own Deed.told? t' ds ++ if t = t' then w.uttering t else [] := by
  cases hu : (w.thread t).stage.utters with
  | none =>
    have hnil : w.uttering t = [] := by rw [uttering, hu]
    rw [hnil, ite_self, List.append_nil]
    cases hd : w.deed? t w' with
    | none => rw [Option.toList_none, List.append_nil]
    | some d =>
      rw [Option.toList_some, own_append, (untold_of_utters hu hd).1]
      exact List.append_nil _
  | some kg =>
    obtain ⟨k, g⟩ := kg
    obtain ⟨d, hd, ht, _⟩ := exists_deed?_of_utters w' hu
    rw [hd, Option.toList_some, own_append, ht, uttering, hu]
    by_cases he : t = t'
    · subst he
      cases ht : w.taken t k g <;> simp [own?, ht]
    · cases w.taken t k g <;> simp [own?, he]

/-- At every moment of a run the records of each thread account for where it stands. -/
theorem Run.candid {drift : R → R → Prop} (h₀ : w₀.Fresh)
    (h : Run (Call.Through e) drift w₀ ds w) :
    ∀ t, Candid e (w.thread t) (own Deed.told? t ds) := by
  induction h with
  | start =>
    intro t
    rw [h₀.threads t]
    exact .start
  | begin t call _ hc hb ih =>
    intro t'
    by_cases ht : t' = t
    · subst ht
      exact candid_begin (ih t') hc hb
    · rw [thread_begin_ne hb ht]
      exact ih t'
  | advance t pick _ ha ih =>
    intro t'
    rw [own_deed?]
    by_cases ht : t' = t
    · subst ht
      rw [if_pos rfl]
      exact (step_of_advance ha).candid (ih t') rfl
    · rw [if_neg (Ne.symm ht), List.append_nil]
      exact (ih t').roused ((step_of_advance ha).others ht)
  | rouse t _ hr ih => exact fun t' => (ih t').roused (roused_of_rouse hr t')
  | collect t a _ hc ih =>
    intro t'
    by_cases ht : t' = t
    · subst ht
      exact candid_collect (ih t') hc
    · rw [thread_collect_ne hc ht]
      exact ih t'
  | drift r _ _ ih => exact ih

end World

end LockTrace
