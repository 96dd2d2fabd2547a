import LockTrace.Proofs.Threads.Truth
import LockTrace.Proofs.Workload.Routine

namespace LockTrace

open Function (update update_self update_of_ne)

variable {V R σ : Type}

/-- Where a worker can be while an action is its next one, with the guards in its slots, and what it
has recorded since the action began. -/
inductive Within (keeps : Slot → Option Guard) :
    Action V σ → Stage V → (Slot → Option Guard) → List (Kind × LockName) → Prop
  | idle {a : Action V σ} : Within keeps a .idle keeps []
  | attempting {e : EmitterId} {m : MutexId} {label : String} {slot : Slot}
      {next : Answer V → σ} {name : LockName} (hl : LockName.ofString? label = some name) :
      Within keeps (.call (.lock .waits e m label slot) next)
        (.attempting .waits ⟨m, name, e⟩ slot) keeps []
  | acquiring {e : EmitterId} {m : MutexId} {label : String} {slot : Slot}
      {next : Answer V → σ} {name : LockName} (hl : LockName.ofString? label = some name) :
      Within keeps (.call (.lock .waits e m label slot) next)
        (.acquiring .waits ⟨m, name, e⟩ slot) keeps [(.attempt, name)]
  | recording {e : EmitterId} {m : MutexId} {label : String} {slot : Slot}
      {next : Answer V → σ} {name : LockName} (hl : LockName.ofString? label = some name) :
      Within keeps (.call (.lock .waits e m label slot) next)
        (.recording ⟨m, name, e⟩ slot) keeps [(.attempt, name)]
  | locked {e : EmitterId} {m : MutexId} {label : String} {slot : Slot}
      {next : Answer V → σ} {name : LockName} (hl : LockName.ofString? label = some name) :
      Within keeps (.call (.lock .waits e m label slot) next) (.finished .ok)
        (update keeps slot (some ⟨m, name, e⟩)) [(.attempt, name), (.acquired, name)]
  | accessing {slot : Slot} {change : V → V} {next : Answer V → σ} {g : Guard}
      (hg : keeps slot = some g) :
      Within keeps (.call (.access slot change) next) (.accessing g change) keeps []
  | accessed {slot : Slot} {change : V → V} {next : Answer V → σ} {v : V} :
      Within keeps (.call (.access slot change) next) (.finished (.value v)) keeps []
  | leaving {slot : Slot} {next : Answer V → σ} {g : Guard} (hg : keeps slot = some g) :
      Within keeps (.call (.leave .dropped slot) next) (.leaving .dropped g)
        (update keeps slot none) []
  | freeing {slot : Slot} {next : Answer V → σ} {g : Guard} (hg : keeps slot = some g) :
      Within keeps (.call (.leave .dropped slot) next) (.freeing .dropped g (.ok ()))
        (update keeps slot none) [(.released, g.name)]
  | left {slot : Slot} {next : Answer V → σ} {g : Guard} (hg : keeps slot = some g) :
      Within keeps (.call (.leave .dropped slot) next) (.finished .ok)
        (update keeps slot none) [(.released, g.name)]
  | judging {c : CondvarId} {slot : Slot} {condition : Condition V} {next : Answer V → σ}
      {g : Guard} (hg : keeps slot = some g) (seen : List V) (n : Nat) :
      Within keeps (.call (.waitWhile c slot condition) next) (.judging c g condition seen) keeps
        (sleeps g.name n)
  | waiting {c : CondvarId} {slot : Slot} {condition : Condition V} {next : Answer V → σ}
      {g : Guard} (hg : keeps slot = some g) (seen : List V) (n : Nat) :
      Within keeps (.call (.waitWhile c slot condition) next)
        (.waiting c g (some (condition, seen))) keeps (sleeps g.name n)
  | parking {c : CondvarId} {slot : Slot} {condition : Condition V} {next : Answer V → σ}
      {g : Guard} (hg : keeps slot = some g) (seen : List V) (n : Nat) :
      Within keeps (.call (.waitWhile c slot condition) next)
        (.parking c g (some (condition, seen))) keeps (sleeps g.name n ++ [(.wait, g.name)])
  | parked {c : CondvarId} {slot : Slot} {condition : Condition V} {next : Answer V → σ}
      {g : Guard} (hg : keeps slot = some g) (seen : List V) (n : Nat) :
      Within keeps (.call (.waitWhile c slot condition) next)
        (.parked c g (some (condition, seen))) keeps (sleeps g.name n ++ [(.wait, g.name)])
  | rejoining {c : CondvarId} {slot : Slot} {condition : Condition V} {next : Answer V → σ}
      {g : Guard} (hg : keeps slot = some g) (seen : List V) (n : Nat) :
      Within keeps (.call (.waitWhile c slot condition) next)
        (.rejoining c g (some (condition, seen))) keeps (sleeps g.name n ++ [(.wait, g.name)])
  | waking {c : CondvarId} {slot : Slot} {condition : Condition V} {next : Answer V → σ}
      {g : Guard} (hg : keeps slot = some g) (seen : List V) (n : Nat) :
      Within keeps (.call (.waitWhile c slot condition) next)
        (.waking c g (some (condition, seen))) keeps (sleeps g.name n ++ [(.wait, g.name)])
  | waited {c : CondvarId} {slot : Slot} {condition : Condition V} {next : Answer V → σ}
      {g : Guard} (hg : keeps slot = some g) (n : Nat) :
      Within keeps (.call (.waitWhile c slot condition) next) (.finished .ok) keeps
        (sleeps g.name n)
  | notifyingOne {c : CondvarId} {next : Answer V → σ} :
      Within keeps (.call (.notifyOne c) next) (.notifying c false) keeps []
  | notifiedOne {c : CondvarId} {next : Answer V → σ} {b : Bool} :
      Within keeps (.call (.notifyOne c) next) (.finished (.flag b)) keeps []
  | notifyingAll {c : CondvarId} {next : Answer V → σ} :
      Within keeps (.call (.notifyAll c) next) (.notifying c true) keeps []
  | notifiedAll {c : CondvarId} {next : Answer V → σ} {n : Nat} :
      Within keeps (.call (.notifyAll c) next) (.finished (.count n)) keeps []

theorem sleeps_succ (name : LockName) (n : Nat) :
    sleeps name (n + 1) = sleeps name n ++ [(.wait, name)] ++ [(.woken, name)] := by
  rw [sleeps, List.replicate_succ', List.flatten_concat, List.append_assoc]
  rfl

theorem Within.called {keeps gs : Slot → Option Guard} {a : Action V σ} {s : Stage V}
    {rs : List (Kind × LockName)} (h : Within keeps a s gs rs) : Within keeps a s.called gs rs := by
  cases h with
  | parked hg seen n => exact .rejoining hg seen n
  | _ => constructor <;> assumption

/-- A worker stands where the routine says, and its records are those of its place. -/
def Routine.Stands (r : Routine V σ) (t : ThreadId) (s : σ) (st : Stage V)
    (guards : Slot → List Guard) (rs : List (Kind × LockName)) : Prop :=
  ∃ gs rs₀ rs₁, r.said t s rs₀ ∧ Within (r.keeps t s) (r.script t s) st gs rs₁ ∧ rs = rs₀ ++ rs₁ ∧
    ∀ slot, guards slot = (gs slot).toList

namespace Play

/-- The play goes by the routine: no record is lost, no mutex can be poisoned, and all workers, who
have made these records, stand where the routine says. -/
structure Follows (r : Routine V σ) (P : R → Prop) (own : ThreadId → List (Kind × LockName))
    (p : Play V R σ) : Prop where
  reliable : P p.world.recorder
  immune : p.world.Immune
  rows : p.world.Rows
  custody : p.plot.Custody r
  stands : ∀ t, r.Stands t (p.places.get t) (p.world.thread t).stage (p.world.guards t) (own t)

namespace Follows

variable {r : Routine V σ} {P : R → Prop} {own : ThreadId → List (Kind × LockName)}
  {p p' : Play V R σ} {t : ThreadId}

/-- What a worker keeps is what the routine says. -/
theorem guard? {gs : Slot → Option Guard} {w : World V R}
    (h : ∀ slot, w.guards t slot = (gs slot).toList) (slot : Slot) : w.guard? t slot = gs slot := by
  rw [World.guard?, h]
  cases gs slot <;> rfl

/-- A worker goes on to another play by a turn, and stands there where the routine says. -/
structure Proceeds [Recorder R] (r : Routine V σ) (P : R → Prop)
    (own : ThreadId → List (Kind × LockName)) (p : Play V R σ) (t : ThreadId)
    (p' : Play V R σ) : Prop where
  turn : p.plot.Turn r t (r.script t (p.places.get t)) (p.world.thread t).stage p'.plot
  reliable : P p'.world.recorder
  stands : r.Stands t (p'.places.get t) (p'.world.thread t).stage (p'.world.guards t)
    (own t ++ p.world.uttering t)

variable [Recorder R]

omit [Recorder R] in
theorem places_set (t : ThreadId) (s : σ) : (p.places.set t s).get = update p.places.get t s := by
  funext t'
  rw [Table.get_set]
  by_cases ht : t' = t
  · rw [ht, if_pos rfl, update_self]
  · rw [if_neg (Ne.symm ht), update_of_ne ht]

omit [Recorder R] in
theorem progress_eq {st : Stage V} (hs : (p.world.thread t).stage = st) :
    p.plot.progress t = st.progress := congrArg Stage.progress hs

theorem uttering_none {st : Stage V} (hs : (p.world.thread t).stage = st)
    (hu : st.utters = none) (rs : List (Kind × LockName)) : rs ++ p.world.uttering t = rs := by
  rw [World.uttering, hs, hu, List.append_nil]

/-- A worker that has no call to make takes a turn. -/
theorem goes (h : p.Follows r P own) (hs : (p.world.thread t).stage = .idle) {next : σ}
    {w : World V R} (ht : p.plot.Turn r t (r.script t (p.places.get t)) .idle p'.plot)
    (hp : p'.places = p.places.set t next) (hw : p'.world = w)
    (hthread : w.thread t = p.world.thread t) (hr : w.recorder = p.world.recorder)
    (hkeeps : r.keeps t next = r.keeps t (p.places.get t))
    (hsaid : ∀ rs, r.said t (p.places.get t) rs → r.said t next rs) :
    Proceeds r P own p t p' := by
  obtain ⟨gs, rs₀, rs₁, hs₀, hwithin, hown, hguards⟩ := h.stands t
  rw [hs] at hwithin
  generalize hrs : rs₁ = rs, r.script t (p.places.get t) = a at hwithin
  cases hwithin
  subst hrs
  refine ⟨hs ▸ ht, ?_, r.keeps t next, rs₀, [], ?_, ?_, ?_, ?_⟩
  · rw [hw, hr]
    exact h.reliable
  · rw [hp, Table.get_set_self]
    exact hsaid rs₀ hs₀
  · rw [hp, Table.get_set_self, hw, hthread, hs]
    exact .idle
  · rw [uttering_none hs rfl]
    exact hown
  · intro slot
    rw [hkeeps, hw, World.guards, hthread]
    exact hguards slot

section Call

variable {c : Call V} {next : Answer V → σ} {w : World V R}

omit [Recorder R] in
/-- A worker begins its next call. The others do not feel it. -/
theorem begin (h : p.Follows r P own) (hs : (p.world.thread t).stage = .idle)
    (hc : r.script t (p.places.get t) = .call c next) :
    ∃ w, p.world.begin t c = some w ∧ ({ p with world := w } : Play V R σ).plot = p.plot ∧
      w.recorder = p.world.recorder ∧
      r.Stands t (p.places.get t) (w.thread t).stage (w.guards t) (own t) := by
  obtain ⟨gs, rs₀, rs₁, hsaid, hwithin, hown, hguards⟩ := h.stands t
  have allows := r.allows t (p.places.get t)
  rw [hs] at hwithin
  rw [hc] at hwithin allows
  generalize hrs : rs₁ = rs at hwithin
  cases hwithin
  subst hrs
  have hprogress : p.world.progress t = .ahead := by rw [World.progress, hs]; rfl
  -- the stage with which the call begins
  have begun {st : Stage V} {w₁ : World V R} {gs : Slot → Option Guard}
      (hst : st.progress = .ahead) (hw : p.world.Mute w₁) (hr : w₁.recorder = p.world.recorder)
      (hb : p.world.begin t c = some (w₁.setStage t st))
      (hwithin : Within (r.keeps t (p.places.get t)) (.call c next) st gs [])
      (hg : ∀ slot, w₁.guards t slot = (gs slot).toList) :
      ∃ w, p.world.begin t c = some w ∧ ({ p with world := w } : Play V R σ).plot = p.plot ∧
        w.recorder = p.world.recorder ∧
        r.Stands t (p.places.get t) (w.thread t).stage (w.guards t) (own t) := by
    refine ⟨_, hb, plot_restage hw (hst.trans hprogress.symm), hr, gs, rs₀, [], hsaid, ?_, hown, ?_⟩
    · rw [World.thread_setStage_self, hc]
      exact hwithin
    · intro slot
      rw [World.guards, World.thread_setStage_self]
      exact hg slot
  have simple {st : Stage V} (hst : st.progress = .ahead)
      (hopen : p.world.opening t c = some st) (hleave : ∀ how slot, c ≠ .leave how slot)
      (hwithin : Within (r.keeps t (p.places.get t)) (.call c next) st
        (r.keeps t (p.places.get t)) []) :
      ∃ w, p.world.begin t c = some w ∧ ({ p with world := w } : Play V R σ).plot = p.plot ∧
        w.recorder = p.world.recorder ∧
        r.Stands t (p.places.get t) (w.thread t).stage (w.guards t) (own t) := by
    refine begun hst (.refl _) rfl ?_ hwithin hguards
    rw [World.begin, hs]
    simp only [hopen, Option.map_some]
  cases c with
  | emit | tag | wait => exact allows.elim
  | lock patience e m label slot =>
    cases patience with
    | tries => exact allows.elim
    | waits =>
      obtain ⟨_, _, name, hl, _⟩ := allows
      refine simple rfl ?_ (by simp) (.attempting hl)
      simp only [World.opening, hl]
  | leave how slot =>
    cases how with
    | released | unwound => exact allows.elim
    | dropped =>
      obtain ⟨g, hg, _⟩ := allows
      have hopen : p.world.opening t (.leave .dropped slot) = some (.leaving .dropped g) := by
        rw [World.opening, guard? hguards, hg]
        rfl
      have hmute : World.Mute p.world (p.world.setGuards t slot (p.world.guards t slot).tail) :=
        (World.Mute.refl _).setGuards ..
      refine begun rfl hmute rfl ?_ (.leaving hg) fun slot' => ?_
      · rw [World.begin, hs]
        simp only [hopen, Option.map_some]
      · rw [World.guards, World.thread_setGuards_self]
        dsimp only
        by_cases hslot : slot' = slot
        · rw [hslot, Table.get_set_self, update_self, hguards, hg]
          rfl
        · rw [Table.get_set_ne _ _ (Ne.symm hslot), update_of_ne hslot]
          exact hguards slot'
  | access slot change =>
    obtain ⟨⟨g, hg⟩, _⟩ := allows
    refine simple rfl ?_ (by simp) (.accessing hg)
    rw [World.opening, guard? hguards, hg]
    rfl
  | waitWhile cv slot condition =>
    obtain ⟨g, hg, _⟩ := allows
    refine simple rfl ?_ (by simp) (.judging hg [] 0)
    rw [World.opening, guard? hguards, hg, Option.bind_some,
      if_neg (Bool.not_eq_true _ ▸ (h.immune g.mutex).poisons)]
  | notifyOne cv => exact simple rfl rfl (by simp) .notifyingOne
  | notifyAll cv => exact simple rfl rfl (by simp) .notifyingAll

/-- A worker gets the answer of its call, and goes where that leads. -/
theorem collect (h : p.Follows r P own) {a : Answer V}
    (hs : (p.world.thread t).stage = .finished a)
    (hc : r.script t (p.places.get t) = .call c next) :
    Proceeds r P own p t { p.move t (next a) with world := p.world.setStage t .idle } := by
  obtain ⟨gs, rs₀, rs₁, hsaid, hwithin, hown, hguards⟩ := h.stands t
  have allows := r.allows t (p.places.get t)
  rw [hs] at hwithin
  rw [hc] at hwithin allows
  have hplot : ({ p.move t (next a) with world := p.world.setStage t .idle } : Play V R σ).plot =
      { p.plot with
        place := update p.plot.place t (next a), progress := update p.plot.progress t .ahead } := by
    rw [plot, move, World.progress_setStage]
    dsimp only
    rw [places_set]
    rfl
  have gone (ha : c.Answers a) (hkeeps : r.keeps t (next a) = gs)
      (hsaid : r.said t (next a) (rs₀ ++ rs₁)) :
      Proceeds r P own p t { p.move t (next a) with world := p.world.setStage t .idle } := by
    refine ⟨?_, h.reliable, r.keeps t (next a), rs₀ ++ rs₁, [], ?_, ?_, ?_, ?_⟩
    · rw [hplot, hs, hc]
      exact .collect (progress_eq hs) ha
    · rw [move, Table.get_set_self]
      exact hsaid
    · rw [move, Table.get_set_self, World.thread_setStage_self]
      exact .idle
    · rw [uttering_none hs rfl, List.append_nil, hown]
    · intro slot
      rw [hkeeps, World.guards, World.thread_setStage_self]
      exact hguards slot
  generalize hrs : rs₁ = rs at hwithin
  cases hwithin with
  | locked hl =>
    obtain ⟨_, _, name, hl', hkeeps, hnext⟩ := allows
    rw [hl] at hl'
    cases hl'
    exact gone trivial hkeeps (hrs ▸ hnext rs₀ hsaid)
  | accessed =>
    obtain ⟨_, hnext⟩ := allows
    refine gone trivial (hnext _).1 ?_
    rw [hrs, List.append_nil]
    exact (hnext _).2 rs₀ hsaid
  | left hg =>
    obtain ⟨g', hg', hkeeps, hnext⟩ := allows
    rw [hg] at hg'
    cases hg'
    exact gone trivial hkeeps (hrs ▸ hnext rs₀ hsaid)
  | waited hg n =>
    obtain ⟨g', hg', _, hkeeps, hnext⟩ := allows
    rw [hg] at hg'
    cases hg'
    exact gone trivial hkeeps (hrs ▸ hnext rs₀ n hsaid)
  | notifiedOne | notifiedAll =>
    refine gone trivial (allows _).1 ?_
    rw [hrs, List.append_nil]
    exact (allows _).2 rs₀ hsaid

omit [Recorder R] in
theorem called_recorder (w : World V R) (cv : CondvarId) (ws xs : List Waiter) :
    ((w.setWaiters cv ws).rouseAll xs).recorder = w.recorder :=
  congrArg Prod.fst (World.outer_rouseAll (w := w.setWaiters cv ws) xs)

omit [Recorder R] in
theorem called_guards (w : World V R) (cv : CondvarId) (ws xs : List Waiter) (t : ThreadId)
    (slot : Slot) : ((w.setWaiters cv ws).rouseAll xs).guards t slot = w.guards t slot := by
  rw [World.guards, World.guards_roused (World.thread_rouseAll (w.setWaiters cv ws) xs t)]
  rfl

omit [Recorder R] in
/-- All who sleep on a condition variable give up the same mutex. -/
theorem not_mixed (h : p.Follows r P own) {cv : CondvarId} {g : Guard}
    (hg : g.mutex = r.mutexOf cv) :
    (p.world.waiters cv).any (·.mutex ≠ g.mutex) = false := by
  refine List.any_eq_false.mpr fun x hx => ?_
  obtain ⟨g', resume, hs, hm⟩ := (h.rows.mem cv x).mp hx
  obtain ⟨gs, rs₀, rs₁, _, hwithin, _, _⟩ := h.stands x.thread
  have allows := r.allows x.thread (p.places.get x.thread)
  rw [hs] at hwithin
  generalize r.script x.thread (p.places.get x.thread) = a at hwithin allows
  cases hwithin with
  | parked hg' =>
    obtain ⟨g'', hg'', hmutex, _⟩ := allows
    rw [hg'] at hg''
    cases hg''
    rw [decide_eq_true_eq, not_not, ← hm, hmutex, hg]

/-- A worker goes on with its call. -/
theorem advance (h : p.Follows r P own) (hr : Recorder.Keeps r.emitter P) {st : Stage V}
    (hs : (p.world.thread t).stage = st) (hw : p.world.Step t st w) :
    Proceeds r P own p t { p with world := w } := by
  obtain ⟨gs, rs₀, rs₁, hsaid, hwithin, hown, hguards⟩ := h.stands t
  have allows := r.allows t (p.places.get t)
  have through := r.through t (p.places.get t)
  have hp := progress_eq hs
  rw [hs] at hwithin
  have hemit {g : Guard} {k : Kind} {res : Except TraceError Unit} {w₁ : World V R}
      (hg : g.emitter = r.emitter) (he : p.world.emit t g.emitter k g.name = (res, w₁)) :
      res = .ok () ∧ (∀ slot, w₁.guards t slot = (gs slot).toList) ∧ P w₁.recorder := by
    obtain ⟨w₂, he', _, _, hguards', hrec⟩ :=
      p.world.exists_emit hr h.reliable t k g.name
    rw [← hg, he] at he'
    obtain ⟨rfl, rfl⟩ := Prod.mk.inj he'
    refine ⟨rfl, fun slot => ?_, hrec⟩
    rw [World.guards, hguards']
    exact hguards slot
  have stand {w₁ : World V R} {st' : Stage V} {gs' : Slot → Option Guard}
      {rs : List (Kind × LockName)} (hrs : rs₁ ++ p.world.uttering t = rs)
      (hw : Within (r.keeps t (p.places.get t)) (r.script t (p.places.get t)) st' gs' rs)
      (hg : ∀ slot, w₁.guards t slot = (gs' slot).toList) :
      r.Stands t (p.places.get t) ((w₁.setStage t st').thread t).stage
        ((w₁.setStage t st').guards t) (own t ++ p.world.uttering t) := by
    refine ⟨gs', rs₀, rs, hsaid, ?_, ?_, fun slot => ?_⟩
    · rw [World.thread_setStage_self]
      exact hw
    · rw [hown, ← hrs, List.append_assoc]
    · rw [World.guards, World.thread_setStage_self]
      exact hg slot
  -- a record in the middle of a call
  have recorded {g : Guard} {k : Kind} {w₁ : World V R} {st' : Stage V}
      (he : p.world.emit t g.emitter k g.name = (.ok (), w₁)) (hg : g.emitter = r.emitter)
      (hu : st.utters = some (k, g)) (hq : Plot.Quiet st) (hpr : st'.progress = st.progress)
      (hw : Within (r.keeps t (p.places.get t)) (r.script t (p.places.get t)) st' gs
        (rs₁ ++ [(k, g.name)])) :
      Proceeds r P own p t { p with world := w₁.setStage t st' } := by
    obtain ⟨_, hguards₁, hrec⟩ := hemit hg he
    refine ⟨?_, hrec, stand ?_ hw hguards₁⟩
    · rw [plot_restage (.emit he) (hpr.trans hp.symm), hs]
      exact .quiet hq
    · rw [World.uttering_of_taken (hs ▸ hu) he]
  -- an effect in the middle of a call
  have effect {w₁ : World V R} {st' : Stage V} {gs' : Slot → Option Guard} {b : Plot V σ}
      (ht : p.plot.Turn r t (r.script t (p.places.get t)) st b)
      (hb : ({ p with world := w₁.setStage t st' } : Play V R σ).plot = b)
      (hrec : w₁.recorder = p.world.recorder) (hu : st.utters = none)
      (hw : Within (r.keeps t (p.places.get t)) (r.script t (p.places.get t)) st' gs' rs₁)
      (hg : ∀ slot, w₁.guards t slot = (gs' slot).toList) :
      Proceeds r P own p t { p with world := w₁.setStage t st' } := by
    refine ⟨?_, ?_, stand (uttering_none hs hu rs₁) hw hg⟩
    · rw [hb, hs]
      exact ht
    · change P w₁.recorder
      rw [hrec]
      exact h.reliable
  generalize hc : r.script t (p.places.get t) = a at hwithin allows stand recorded effect
  cases hwithin with
  | idle | locked | accessed | left | parked | waited | notifiedOne | notifiedAll => cases hw
  | attempting hl =>
    obtain ⟨rfl, _⟩ := allows
    cases hw with
    | attempted he => exact recorded he rfl rfl trivial rfl (.acquiring hl)
    | unattempted he => cases (hemit rfl he).1
  | acquiring hl =>
    cases hw with
    | poisoned _ hx =>
      rw [(h.immune _).poisoned] at hx
      contradiction
    | acquired hf =>
      exact effect (.lock hp hf)
        (plot_effect rfl (World.value_take ..) (World.holder_take_eq ..) rfl t _) rfl rfl
        (.recording hl) hguards
  | @recording _ _ _ slot _ _ hl =>
    obtain ⟨rfl, hslot, _⟩ := allows
    cases hw with
    | recorded he =>
      obtain ⟨_, hguards₁, hrec⟩ := hemit rfl he
      refine ⟨?_, hrec, stand ?_ (.locked hl) fun slot' => ?_⟩
      · rw [World.finish, plot_restage ((World.Mute.emit he).keep ..), hs]
        · exact .quiet trivial
        · exact hp.symm
      · rw [World.uttering_of_taken (by rw [hs]; rfl) he]
        rfl
      · rw [World.keep, World.guards, World.thread_setGuards_self]
        dsimp only
        by_cases he : slot' = slot
        · rw [he, Table.get_set_self, update_self, hguards₁, hslot]
          rfl
        · rw [Table.get_set_ne _ _ (Ne.symm he), update_of_ne he]
          exact hguards₁ slot'
    | unrecorded he => cases (hemit rfl he).1
  | accessing hg =>
    cases hw with
    | accessed hv =>
      subst hv
      exact effect (.access hg hp)
        (plot_effect rfl (World.value_setMutex ..) (World.holder_setMutex_eq ..) rfl t _) rfl rfl
        .accessed hguards
  | leaving hg =>
    cases hw with
    | left he =>
      obtain ⟨rfl, _⟩ := hemit (through _ _ hg) he
      exact recorded he (through _ _ hg) rfl trivial rfl (.freeing hg)
  | freeing hg =>
    cases hw with
    | freed =>
      exact effect (.leave hg hp)
        (plot_effect rfl (World.value_free ..) (World.holder_free_eq ..) rfl t _) rfl rfl
        (.left hg) hguards
  | judging hg seen n =>
    cases hw with
    | again hv =>
      exact effect (.again hg hp hv)
        (plot_effect rfl (World.value_setMutex ..) (World.holder_setMutex_eq ..) rfl t _) rfl rfl
        (.waiting hg _ n) hguards
    | enough hv =>
      exact effect (.enough hg hp hv)
        (plot_effect rfl (World.value_setMutex ..) (World.holder_setMutex_eq ..) rfl t _) rfl rfl
        (.waited hg n) hguards
  | waiting hg seen n =>
    cases hw with
    | slept he => exact recorded he (through _ _ hg) rfl trivial rfl (.parking hg seen n)
    | unslept he => cases (hemit (through _ _ hg) he).1
  | parking hg seen n =>
    obtain ⟨g', hg', hmutex, _⟩ := allows
    rw [hg] at hg'
    cases hg'
    cases hw with
    | mixed hx =>
      rw [h.not_mixed hmutex] at hx
      contradiction
    | parked _ =>
      exact effect (.park hg hp)
        (plot_effect rfl (World.value_free ..) (World.holder_free_eq ..) rfl t _) rfl rfl
        (.parked hg seen n) hguards
  | rejoining hg seen n =>
    cases hw with
    | rejoined hf =>
      exact effect (.rejoin hg hp hf)
        (plot_effect rfl (World.value_take ..) (World.holder_take_eq ..) rfl t _) rfl rfl
        (.waking hg seen n) hguards
  | waking hg seen n =>
    cases hw with
    | resumed he =>
      refine recorded he (through _ _ hg) rfl trivial rfl ?_
      rw [← sleeps_succ]
      exact .judging hg seen (n + 1)
    | unwoken he => cases (hemit (through _ _ hg) he).1
  | notifyingOne =>
    cases hw with
    | notifiedNobody hrow =>
      refine effect (.notifyNobody hp fun x hx => ?_) (plot_effect rfl rfl rfl rfl t _) rfl rfl
        .notifiedOne hguards
      obtain ⟨g, resume, hx⟩ := Stage.eq_parked hx
      have hmem := (h.rows.mem _ ⟨x, g.mutex⟩).mpr ⟨g, resume, hx, rfl⟩
      rw [hrow] at hmem
      exact List.not_mem_nil hmem
    | notifiedOne hx =>
      obtain ⟨hparked, hcalled⟩ := h.rows.progress_callOne hx
      refine effect (.notifyOne _ hp hparked)
        (plot_effect hcalled (World.value_rouseAll _) (World.holder_rouseAll _)
          (World.notices_rouseAll _) t _)
        (called_recorder ..) rfl .notifiedOne fun slot => ?_
      rw [called_guards]
      exact hguards slot
  | notifyingAll =>
    cases hw with
    | notifiedAll =>
      refine effect (.notifyAll hp)
        (plot_effect (h.rows.progress_callAll _) (World.value_rouseAll _)
          (World.holder_rouseAll _) (World.notices_rouseAll _) t _)
        (called_recorder ..) rfl .notifiedAll fun slot => ?_
      rw [called_guards]
      exact hguards slot

end Call

omit [Recorder R] in
theorem stands_roused {own : List (Kind × LockName)} {s : σ} {th th' : Thread V}
    (h : r.Stands t s th.stage th.guards.get own) (hr : World.Roused th th') :
    r.Stands t s th'.stage th'.guards.get own := by
  rcases hr with rfl | ⟨c, g, resume, hs, rfl⟩
  · exact h
  · obtain ⟨gs, rs₀, rs₁, hsaid, hwithin, hown, hguards⟩ := h
    have hcalled := hwithin.called
    rw [hs] at hcalled
    exact ⟨gs, rs₀, rs₁, hsaid, hcalled, hown, hguards⟩

/-- A worker that proceeds leaves the others where the routine says. -/
theorem of_proceeds (h : p.Follows r P own) (hp : Proceeds r P own p t p')
    (hothers : ∀ t' ≠ t, p'.places.get t' = p.places.get t' ∧
      World.Roused (p.world.thread t') (p'.world.thread t'))
    (himmune : p'.world.Immune) (hrows : p'.world.Rows) :
    p'.Follows r P fun t' => own t' ++ if t = t' then p.world.uttering t else [] where
  reliable := hp.reliable
  immune := himmune
  rows := hrows
  custody := h.custody.turn hp.turn
  stands t' := by
    by_cases ht : t = t'
    · subst ht
      rw [if_pos rfl]
      exact hp.stands
    · obtain ⟨hplace, hroused⟩ := hothers t' (Ne.symm ht)
      rw [if_neg ht, List.append_nil, hplace]
      exact stands_roused (h.stands t') hroused

/-- Whatever a worker does is a turn. -/
theorem act (h : p.Follows r P own) (hr : Recorder.Keeps r.emitter P)
    {pick : List Waiter → Option Waiter} (ha : p.act r.script t pick = some p') :
    p'.Follows r P (fun t' => own t' ++ if t = t' then p.world.uttering t else []) ∧
      p.plot.Turn r t (r.script t (p.places.get t)) (p.world.thread t).stage p'.plot := by
  have hact := Act.of_act ha
  have hothers (t' : ThreadId) (ht : t' ≠ t) := hact.others ht
  have done (hp : Proceeds r P own p t p') (himmune : p'.world.Immune) (hrows : p'.world.Rows) :
      p'.Follows r P (fun t' => own t' ++ if t = t' then p.world.uttering t else []) ∧
        p.plot.Turn r t (r.script t (p.places.get t)) (p.world.thread t).stage p'.plot :=
    ⟨h.of_proceeds hp hothers himmune hrows, hp.turn⟩
  have hmove (next : σ) : (p.move t next).plot =
      { p.plot with place := update p.plot.place t next } := by
    rw [plot, move]
    dsimp only
    rw [places_set]
    rfl
  have allows := r.allows t (p.places.get t)
  cases hact with
  | begin hs hc hb =>
    obtain ⟨w', hb', hplot, hrec, hstands⟩ := h.begin hs hc
    rw [hb] at hb'
    cases hb'
    refine done ⟨?_, ?_, ?_⟩ (World.Every.begin h.immune hb) (h.rows.begin hb)
    · rw [hplot, hs]
      exact .quiet trivial
    · dsimp only
      rw [hrec]
      exact h.reliable
    · rw [uttering_none hs rfl]
      exact hstands
  | advance ha' =>
    have hstep := World.step_of_advance ha'
    exact done (h.advance hr rfl hstep) (World.Every.step Mutex.lasting_immune h.immune hstep)
      (h.rows.step rfl hstep)
  | collect hs hc =>
    refine done (h.collect hs hc) h.immune (h.rows.setIdle ?_)
    rw [hs]
    exact id
  | pause hs hc =>
    rw [hc] at allows
    refine done (h.goes hs ?_ rfl rfl rfl rfl allows.1 allows.2) h.immune h.rows
    rw [hmove, hc]
    exact .pause (progress_eq hs)
  | @note n next hs hc =>
    rw [hc] at allows
    have hplot : ({ p.move t next with world := p.world.note n } : Play V R σ).plot =
        { (p.move t next).plot with notices := p.plot.notices ++ [n] } := rfl
    refine done (h.goes hs ?_ rfl rfl rfl rfl allows.1 allows.2) h.immune
      ⟨h.rows.mem, h.rows.nodup⟩
    rw [hplot, hmove, hc]
    exact .note (progress_eq hs)
  | @arrive next hs hc =>
    rw [hc] at allows
    have hplot : ({ p.move t next with arrivals := p.arrivals + 1 } : Play V R σ).plot =
        { (p.move t next).plot with arrivals := p.plot.arrivals + 1 } := rfl
    refine done (h.goes hs ?_ rfl rfl rfl rfl allows.1 allows.2) h.immune h.rows
    rw [hplot, hmove, hc]
    exact .arrive (progress_eq hs)
  | meet hs hc ha' =>
    rw [hc] at allows
    refine done (h.goes hs ?_ rfl rfl rfl rfl allows.1 allows.2) h.immune h.rows
    rw [hmove, hc]
    exact .meet (progress_eq hs) ha'
  | stop hs hc he =>
    have hended : ∀ e ∈ p.ended, e.1 ≠ t := by
      intro e hm
      simpa using List.any_eq_false.mp he e hm
    refine done ⟨?_, h.reliable, ?_⟩ h.immune h.rows
    · rw [hs, hc]
      exact .stop (progress_eq hs) hended
    · rw [uttering_none hs rfl]
      exact h.stands t

omit [Recorder R] in
/-- A sleeper wakes by itself. -/
theorem rouse (h : p.Follows r P own) {w : World V R} (hw : p.world.rouse t = some w) :
    ({ p with world := w } : Play V R σ).Follows r P own ∧
      p.plot.Turn r t (r.script t (p.places.get t)) (p.world.thread t).stage
        ({ p with world := w } : Play V R σ).plot := by
  obtain ⟨c, g, resume, hs, rfl, hmem⟩ := h.rows.rouse hw
  obtain ⟨hparked, hcalled⟩ := h.rows.progress_callOne hmem
  have hplot : ({ p with world :=
      (p.world.setWaiters c ((p.world.waiters c).erase ⟨t, g.mutex⟩)).rouseAll [⟨t, g.mutex⟩] } :
        Play V R σ).plot = { p.plot with progress := update p.plot.progress t .roused } := by
    rw [plot, hcalled, World.value_rouseAll, World.holder_rouseAll, World.notices_rouseAll]
    rfl
  have hturn : p.plot.Turn r t (r.script t (p.places.get t)) (p.world.thread t).stage
      { p.plot with progress := update p.plot.progress t .roused } := by
    obtain ⟨gs, rs₀, rs₁, _, hwithin, _, _⟩ := h.stands t
    rw [hs] at hwithin ⊢
    generalize r.script t (p.places.get t) = a at hwithin
    cases hwithin
    exact .rouse hparked
  refine ⟨⟨?_, ?_, h.rows.callOne hmem, ?_, fun t' => ?_⟩, hplot ▸ hturn⟩
  · dsimp only
    rw [called_recorder]
    exact h.reliable
  · exact World.Every.rouse h.immune hw
  · rw [hplot]
    exact h.custody.turn hturn
  · exact stands_roused (h.stands t') (World.roused_of_rouse hw t')

omit [Recorder R] in
/-- The recorder may change by itself. -/
theorem drift (h : p.Follows r P own) {rec : R} (hP : P rec) :
    ({ p with world := { p.world with recorder := rec } } : Play V R σ).Follows r P own :=
  ⟨hP, h.immune, ⟨h.rows.mem, h.rows.nodup⟩, h.custody, h.stands⟩

end Follows

/-- Nobody has done anything yet. -/
structure Opens (r : Routine V σ) (P : R → Prop) (p : Play V R σ) : Prop where
  reliable : P p.world.recorder
  immune : p.world.Immune
  free : ∀ m, p.world.holder m = none
  waiters : ∀ c, p.world.waiters c = []
  threads : ∀ t, p.world.thread t = {}
  keeps : ∀ t slot, r.keeps t (p.places.get t) slot = none
  said : ∀ t, r.said t (p.places.get t) []

/-- The deed that a worker does by a move. -/
def deed? [Recorder R] (p : Play V R σ) (t : ThreadId) (p' : Play V R σ) : Option Deed :=
  p.world.deed? t p'.world

section Chronicle

variable {r : Routine V σ} {P : R → Prop} {p₀ p : Play V R σ}

theorem opens_opening {place : ThreadId → σ} {rest : σ} {workers : List ThreadId} {value : V}
    {recorder : R} (hP : P recorder)
    (hplace : ∀ t, (∀ slot, r.keeps t (place t) slot = none) ∧ r.said t (place t) [])
    (hrest : ∀ t, (∀ slot, r.keeps t rest slot = none) ∧ r.said t rest []) :
    Opens r P (opening place rest workers value recorder) := by
  refine ⟨hP, fun m => ⟨rfl, rfl⟩, fun m => rfl, fun c => rfl, fun t => rfl, fun t slot => ?_,
    fun t => ?_⟩
  · rw [places_opening]
    split
    · exact (hplace t).1 slot
    · exact (hrest t).1 slot
  · rw [places_opening]
    split
    · exact (hplace t).2
    · exact (hrest t).2

theorem Opens.follows (h : Opens r P p₀) : p₀.Follows r P fun _ => [] where
  reliable := h.reliable
  immune := h.immune
  rows := .of_threads h.waiters h.threads
  custody := by
    have hheld (t : ThreadId) (slot : Slot) : p₀.plot.held r t slot = none := by
      have hp : p₀.plot.progress t = .ahead := Follows.progress_eq (by rw [h.threads t])
      rw [Plot.held, hp, Routine.holds_ahead]
      exact h.keeps t slot
    refine ⟨fun t m => ?_, fun t slot slot' g g' hg => ?_⟩
    · refine iff_of_false (fun he => ?_) ?_
      · rw [show p₀.plot.holder m = none from h.free m] at he
        contradiction
      · rintro ⟨slot, g, hg, _⟩
        rw [hheld] at hg
        contradiction
    · rw [hheld] at hg
      contradiction
  stands t := by
    refine ⟨r.keeps t (p₀.places.get t), [], [], h.said t, ?_, rfl, fun slot => ?_⟩
    · rw [h.threads t]
      exact .idle
    · rw [World.guards, h.threads t, h.keeps]
      rfl

variable [Recorder R] {workers : List ThreadId} {drift : R → R → Prop}

/-- All that workers come to goes by the routine. -/
theorem Chronicle.exists_follows {α : Type} {mark : Play V R σ → ThreadId → Play V R σ → Option α}
    {xs : List α} (h₀ : Opens r P p₀) (hr : Recorder.Keeps r.emitter P)
    (hd : ∀ a b, drift a b → P a → P b)
    (h : Chronicle r.script workers drift mark p₀ xs p) : ∃ own, p.Follows r P own := by
  induction h with
  | start => exact ⟨_, h₀.follows⟩
  | act t _ pick _ ha ih =>
    obtain ⟨own, hf⟩ := ih
    exact ⟨_, (hf.act hr ha).1⟩
  | rouse t _ hw ih =>
    obtain ⟨own, hf⟩ := ih
    exact ⟨own, (hf.rouse hw).1⟩
  | drift rec _ hdrift ih =>
    obtain ⟨own, hf⟩ := ih
    exact ⟨own, hf.drift (hd _ _ hdrift hf.reliable)⟩

/-- What every turn of a worker keeps, with what is marked of it, holds all the time. -/
theorem Chronicle.marks_keep {α : Type} {mark : Play V R σ → ThreadId → Play V R σ → Option α}
    {xs : List α} (h₀ : Opens r P p₀) (hr : Recorder.Keeps r.emitter P)
    (hd : ∀ a b, drift a b → P a → P b) {I : List α → Plot V σ → Prop} (hstart : I [] p₀.plot)
    (hact : ∀ xs p p' t, t ∈ workers → p.plot.Custody r →
      p.plot.Turn r t (r.script t (p.places.get t)) (p.world.thread t).stage p'.plot →
      I xs p.plot → I (xs ++ (mark p t p').toList) p'.plot)
    (hrouse : ∀ xs b b' t c g resume, t ∈ workers → b.Custody r →
      b.Turn r t (r.script t (b.place t)) (.parked c g resume) b' → I xs b → I xs b')
    (h : Chronicle r.script workers drift mark p₀ xs p) : I xs p.plot := by
  induction h with
  | start => exact hstart
  | act t ht pick h ha ih =>
    obtain ⟨own, hf⟩ := h.exists_follows h₀ hr hd
    exact hact _ _ _ t ht hf.custody (hf.act hr ha).2 ih
  | @rouse xs p w t h hw ih =>
    obtain ⟨own, hf⟩ := h.exists_follows h₀ hr hd
    obtain ⟨c, g, resume, hs, _⟩ := hf.rows.rouse hw
    refine hrouse xs _ _ t c g resume ?_ hf.custody (hs ▸ (hf.rouse hw).2) ih
    -- whoever is no worker never fell asleep
    by_contra ht
    rw [(h.others h₀.threads ht).2] at hs
    contradiction
  | drift rec _ _ ih => exact ih

/-- What every turn of a worker keeps holds all the time. -/
theorem Chronicle.plot_keeps {α : Type} {mark : Play V R σ → ThreadId → Play V R σ → Option α}
    {xs : List α} (h₀ : Opens r P p₀) (hr : Recorder.Keeps r.emitter P)
    (hd : ∀ a b, drift a b → P a → P b) {I : Plot V σ → Prop} (hstart : I p₀.plot)
    (hturn : ∀ b b' t s, t ∈ workers → b.Custody r → b.Turn r t (r.script t (b.place t)) s b' →
      I b → I b')
    (h : Chronicle r.script workers drift mark p₀ xs p) : I p.plot :=
  h.marks_keep h₀ hr hd (I := fun _ => I) hstart (fun _ _ _ t => hturn _ _ t _)
    fun _ b b' t _ _ _ => hturn b b' t _

/-- Who has ended stays where the script says so. -/
theorem Chronicle.stops {α : Type} {mark : Play V R σ → ThreadId → Play V R σ → Option α}
    {xs : List α} (h₀ : Opens r P p₀) (hr : Recorder.Keeps r.emitter P)
    (hd : ∀ a b, drift a b → P a → P b) (he : p₀.ended = [])
    (h : Chronicle r.script workers drift mark p₀ xs p) :
    ∀ e ∈ p.ended, r.script e.1 (p.places.get e.1) = .stop e.2 := by
  refine h.plot_keeps h₀ hr hd (I := fun b => ∀ e ∈ b.ended, r.script e.1 (b.place e.1) = .stop e.2)
    ?_ fun b b' t s _ _ ht => ht.stops
  rw [show p₀.plot.ended = [] from he]
  exact List.forall_mem_nil _

/-- The records of the workers are those of their deeds. -/
theorem Chronicle.follows {ds : List Deed} (h₀ : Opens r P p₀) (hr : Recorder.Keeps r.emitter P)
    (hd : ∀ a b, drift a b → P a → P b)
    (h : Chronicle r.script workers drift deed? p₀ ds p) :
    p.Follows r P fun t => own Deed.told? t ds := by
  induction h with
  | start => exact h₀.follows
  | act t _ pick _ ha ih =>
    have hf := (ih.act hr ha).1
    simp only [deed?, World.own_deed?]
    exact hf
  | rouse t _ hw ih => exact (ih.rouse hw).1
  | drift rec _ hdrift ih => exact ih.drift (hd _ _ hdrift ih.reliable)

/-- Only workers hold mutexes. -/
theorem Chronicle.mem_of_holder {α : Type}
    {mark : Play V R σ → ThreadId → Play V R σ → Option α} {xs : List α} (h₀ : Opens r P p₀)
    (hr : Recorder.Keeps r.emitter P) (hd : ∀ a b, drift a b → P a → P b)
    (h : Chronicle r.script workers drift mark p₀ xs p) {t : ThreadId} {m : MutexId}
    (hh : p.world.holder m = some t) : t ∈ workers := by
  obtain ⟨own, hf⟩ := h.exists_follows h₀ hr hd
  by_contra ht
  obtain ⟨hplace, hidle⟩ := h.others h₀.threads ht
  obtain ⟨slot, g, hg, _⟩ := (hf.custody.holder t m).mp hh
  have hp : p.plot.progress t = .ahead := Follows.progress_eq hidle
  have hnone := h₀.keeps t slot
  rw [Plot.held, hp, show p.plot.place t = _ from hplace, Routine.holds_ahead, hnone] at hg
  contradiction

end Chronicle

end Play

end LockTrace
