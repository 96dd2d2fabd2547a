import LockTrace.Proofs.Threads.Play
import LockTrace.Proofs.Workload.Rounds

namespace LockTrace

namespace Barrier

open Function (update update_self update_of_ne)

/-- The guard of whoever has the mutex of the barrier. -/
def pass : Guard := ⟨0, ⟨lockName, by decide⟩, 0⟩

def Wait.Over : Wait → Prop
  | .ended _ => True
  | _ => False

/-- The worker is not inside a call of the barrier. -/
def Outside (o : Option Wait) : Prop := ∀ w ∈ o, w.Over

theorem outside_none : Outside none := by
  intro w hw
  contradiction

/-- Workers whose only calls are those of the barrier, as often as they like. `spot` says where in
such a call a place of theirs is. -/
structure Attends {σ : Type} (parties : Nat) (script : Script Phase σ) (spot : σ → Option Wait) :
    Prop where
  inside : ∀ t s w, spot s = some w → ¬ w.Over → ∃ here next,
    (∀ w', spot (here w') = some w') ∧ script t s = w.action parties here next
  outside : ∀ t s, Outside (spot s) →
    (script t s).Leads fun s' => Outside (spot s') ∨ spot s' = some .locking

variable {R σ : Type}

/-- The visits after a move of a thread. It arrives when it counts itself, and its visit has an
answer when the call ends with it. -/
def visitsAfter (spot : σ → Option Wait) (vs : List Visit) (p p' : Play Phase R σ) (t : ThreadId) :
    List Visit :=
  match spot (p.places.get t), (p.world.thread t).stage, spot (p'.places.get t) with
  | some .arriving, .accessing .., _ => vs ++ [⟨t, (p.world.mutex 0).value.generation, none⟩]
  | some (.leaving _), .finished _, some (.ended (.ok leader)) => vs.map (Visit.close t leader)
  | _, _, _ => vs

/-- A stage in which a thread neither arrives nor returns. -/
def Unremarkable : Stage Phase → Prop
  | .accessing .. | .finished _ => False
  | _ => True

theorem visitsAfter_of_stage {spot : σ → Option Wait} {vs : List Visit} {p p' : Play Phase R σ}
    {t : ThreadId} {st : Stage Phase} (hst : (p.world.thread t).stage = st)
    (hu : Unremarkable st) : visitsAfter spot vs p p' t = vs := by
  unfold visitsAfter
  rw [hst]
  split
  · exact hu.elim
  · exact hu.elim
  · rfl

/-- What workers come to in any order of moves, with the visits that they have made on the way.
Sleepers may wake without being called, and the recorder may change at any time as long as it has
the property. -/
inductive Gathering [Recorder R] (script : Script Phase σ) (spot : σ → Option Wait)
    (workers : List ThreadId) (P : R → Prop) (p₀ : Play Phase R σ) :
    List Visit → Play Phase R σ → Prop
  | start : Gathering script spot workers P p₀ [] p₀
  | act {vs : List Visit} {p p' : Play Phase R σ} (t : ThreadId) (ht : t ∈ workers)
      (pick : List Waiter → Option Waiter) (h : Gathering script spot workers P p₀ vs p)
      (ha : p.act script t pick = some p') :
      Gathering script spot workers P p₀ (visitsAfter spot vs p p' t) p'
  | rouse {vs : List Visit} {p : Play Phase R σ} {w : World Phase R} (t : ThreadId)
      (h : Gathering script spot workers P p₀ vs p) (hr : p.world.rouse t = some w) :
      Gathering script spot workers P p₀ vs { p with world := w }
  | drift {vs : List Visit} {p : Play Phase R σ} (r : R)
      (h : Gathering script spot workers P p₀ vs p) (hr : P r) :
      Gathering script spot workers P p₀ vs { p with world := { p.world with recorder := r } }

/-- A worker's place, the stage of its call and its guards put it in a seat. -/
inductive Sits (parties : Nat) : Option Wait → Stage Phase → List Guard → Seat → Prop
  | out {o : Option Wait} (ho : Outside o) : Sits parties o .idle [] .away
  | calling : Sits parties (some .locking) .idle [] .away
  | asking : Sits parties (some .locking) (.attempting .waits pass 0) [] .away
  | awaiting : Sits parties (some .locking) (.acquiring .waits pass 0) [] .away
  | admitted : Sits parties (some .locking) (.recording pass 0) [] .entered
  | locked : Sits parties (some .locking) (.finished .ok) [pass] .entered
  | inside : Sits parties (some .arriving) .idle [pass] .entered
  | arriving :
      Sits parties (some .arriving) (.accessing pass (Phase.arrive parties)) [pass] .entered
  | last {v : Phase} {i : Nat} (hv : v.arrived = 0) :
      Sits parties (some .arriving) (.finished (.value v)) [pass] (.leading i)
  | one {v : Phase} {i : Nat} (hv : v.arrived ≠ 0) (hg : v.generation = i / parties) :
      Sits parties (some .arriving) (.finished (.value v)) [pass] (.judging i)
  | leading {i : Nat} : Sits parties (some .notifying) .idle [pass] (.leading i)
  | notifying {i : Nat} : Sits parties (some .notifying) (.notifying 0 true) [pass] (.leading i)
  | notified {i k : Nat} :
      Sits parties (some .notifying) (.finished (.count k)) [pass] (.leaving i true)
  | staying {i : Nat} : Sits parties (some (.waiting (i / parties))) .idle [pass] (.judging i)
  | judging {i : Nat} {seen : List Phase} :
      Sits parties (some (.waiting (i / parties)))
        (.judging 0 pass (sameGeneration (i / parties)) seen) [pass] (.judging i)
  | waiting {i : Nat} {seen : List Phase} :
      Sits parties (some (.waiting (i / parties)))
        (.waiting 0 pass (some (sameGeneration (i / parties), seen))) [pass] (.dozing i)
  | parking {i : Nat} {seen : List Phase} :
      Sits parties (some (.waiting (i / parties)))
        (.parking 0 pass (some (sameGeneration (i / parties), seen))) [pass] (.dozing i)
  | parked {i : Nat} {seen : List Phase} :
      Sits parties (some (.waiting (i / parties)))
        (.parked 0 pass (some (sameGeneration (i / parties), seen))) [pass] (.parked i)
  | rejoining {i : Nat} {seen : List Phase} :
      Sits parties (some (.waiting (i / parties)))
        (.rejoining 0 pass (some (sameGeneration (i / parties), seen))) [pass] (.roused i)
  | waking {i : Nat} {seen : List Phase} :
      Sits parties (some (.waiting (i / parties)))
        (.waking 0 pass (some (sameGeneration (i / parties), seen))) [pass] (.judging i)
  | waited {i : Nat} :
      Sits parties (some (.waiting (i / parties))) (.finished .ok) [pass] (.leaving i false)
  | done {i : Nat} {leader : Bool} :
      Sits parties (some (.leaving leader)) .idle [pass] (.leaving i leader)
  | leaving {i : Nat} {leader : Bool} :
      Sits parties (some (.leaving leader)) (.leaving .dropped pass) [] (.leaving i leader)
  | freeing {i : Nat} {leader : Bool} :
      Sits parties (some (.leaving leader)) (.freeing .dropped pass (.ok ())) [] (.leaving i leader)
  | left {i : Nat} {leader : Bool} :
      Sits parties (some (.leaving leader)) (.finished .ok) [] (.left i leader)

/-- A worker that is not inside the barrier is away. -/
theorem Sits.of_outside {parties : Nat} {o : Option Wait} {st : Stage Phase} {gs : List Guard}
    {s : Seat} (h : Sits parties o st gs s) (ho : Outside o) :
    st = .idle ∧ gs = [] ∧ s = .away := by
  cases h with
  | out => exact ⟨rfl, rfl, rfl⟩
  | _ => exact (ho _ rfl).elim

/-- The play looks like the meeting. -/
structure Agrees (parties : Nat) (spot : σ → Option Wait) (P : R → Prop) (p : Play Phase R σ)
    (m : Meeting) : Prop where
  phase : (p.world.mutex 0).value = m.phase
  holder : p.world.holder 0 = m.holder
  immune : (p.world.mutex 0).Immune
  waiters : ∀ x, x ∈ p.world.waiters 0 ↔ x.mutex = 0 ∧ ∃ i, m.seats x.thread = .parked i
  reliable : P p.world.recorder
  sits : ∀ t, Sits parties (spot (p.places.get t)) (p.world.thread t).stage (p.world.guards t 0)
    (m.seats t)

/-- A move of a thread is one that matters to the others, or nothing to them. -/
def Follows (parties : Nat) (spot : σ → Option Wait) (P : R → Prop) (p : Play Phase R σ)
    (m : Meeting) (t : ThreadId) (p' : Play Phase R σ) : Prop :=
  ∃ m', (m' = m ∨ m.Turn parties t m') ∧ Agrees parties spot P p' m' ∧
    m'.visits = visitsAfter spot m.visits p p' t

namespace Agrees

variable {parties : Nat} {spot : σ → Option Wait} {P : R → Prop} {p p' : Play Phase R σ}
  {m : Meeting} {t : ThreadId}

/-- A thread that neither falls asleep nor wakes takes a seat. -/
theorem turn (h : Agrees parties spot P p m) {w : World Phase R} (hw : p.world.Near t w)
    {places : Table ThreadId σ} (hp : ∀ t' ≠ t, places.get t' = p.places.get t')
    {phase : Phase} {holder : Option ThreadId} {s : Seat} {visits : List Visit}
    {arrivals : Nat} {ended : List (ThreadId × Except String Unit)}
    (hv : (w.mutex 0).value = phase) (hh : w.holder 0 = holder) (hi : (w.mutex 0).Immune)
    (hr : P w.recorder) (ht : (m.seats t).Awake) (hs : s.Awake)
    (hsits : Sits parties (spot (places.get t)) (w.thread t).stage (w.guards t 0) s) :
    Agrees parties spot P ⟨w, places, arrivals, ended⟩ ⟨phase, holder, update m.seats t s, visits⟩
    where
  phase := hv
  holder := hh
  immune := hi
  reliable := hr
  waiters x := by
    dsimp only
    rw [hw.waiters, h.waiters]
    by_cases hx : x.thread = t
    · rw [hx, update_self]
      simp [ht.ne, hs.ne]
    · rw [update_of_ne hx]
  sits t' := by
    dsimp only
    by_cases he : t' = t
    · subst he
      rw [update_self]
      exact hsits
    · have hs' := h.sits t'
      rw [update_of_ne he, hp t' he, World.guards, hw.thread t' he]
      exact hs'

/-- A thread that stays in its seat. -/
theorem stay (h : Agrees parties spot P p m) {w : World Phase R} (hw : p.world.Near t w)
    {places : Table ThreadId σ} (hp : ∀ t' ≠ t, places.get t' = p.places.get t')
    {arrivals : Nat} {ended : List (ThreadId × Except String Unit)}
    (hm : w.mutex 0 = p.world.mutex 0) (hr : P w.recorder) (ht : (m.seats t).Awake)
    (hsits : Sits parties (spot (places.get t)) (w.thread t).stage (w.guards t 0) (m.seats t)) :
    Agrees parties spot P ⟨w, places, arrivals, ended⟩ m := by
  have hturn : Agrees parties spot P ⟨w, places, arrivals, ended⟩
      ⟨m.phase, m.holder, update m.seats t (m.seats t), m.visits⟩ :=
    h.turn hw hp (by rw [hm]; exact h.phase) (by rw [World.holder, hm]; exact h.holder)
      (by rw [hm]; exact h.immune) hr ht ht hsits
  rw [Function.update_eq_self] at hturn
  exact hturn

/-- A thread goes on within a call, in the same seat. -/
theorem restage (h : Agrees parties spot P p m) {w : World Phase R} (hw : p.world.Near t w)
    (hm : w.mutex 0 = p.world.mutex 0) (hr : P w.recorder) (ht : (m.seats t).Awake)
    {s : Stage Phase}
    (hsits : Sits parties (spot (p.places.get t)) s (w.guards t 0) (m.seats t)) :
    Agrees parties spot P { p with world := w.setStage t s } m := by
  apply h.stay (hw.setStage s) (fun _ _ => rfl) hm hr ht
  simpa [World.guards] using hsits

variable [Recorder R] {script : Script Phase σ} {pick : List Waiter → Option Waiter}

/-- Outside the barrier a worker does nothing that the others feel. -/
theorem out (h : Agrees parties spot P p m) (hs : Attends parties script spot)
    (ho : Outside (spot (p.places.get t))) (hi : (p.world.thread t).stage = .idle)
    (hg : p.world.guards t 0 = []) (hseat : m.seats t = .away)
    (ha : p.act script t pick = some p') : Follows parties spot P p m t p' := by
  have hleads := hs.outside t _ ho
  have hmoved {next : σ} (hn : Outside (spot next) ∨ spot next = some .locking) :
      Sits parties (spot ((p.places.set t next).get t)) (p.world.thread t).stage
        (p.world.guards t 0) (m.seats t) := by
    rw [Table.get_set_self, hi, hg, hseat]
    rcases hn with hn | hn
    · exact .out hn
    · rw [hn]
      exact .calling
  have hplace {next : σ} : ∀ t' ≠ t, (p.places.set t next).get t' = p.places.get t' :=
    fun t' ht => Table.get_set_ne _ _ (Ne.symm ht)
  have hawake : (m.seats t).Awake := by rw [hseat]; trivial
  refine ⟨m, .inl rfl, ?_, (visitsAfter_of_stage hi trivial).symm⟩
  cases hscript : script t (p.places.get t) with
  | call c next =>
    rw [hscript] at hleads
    exact hleads.elim
  | pause ms next | arrive next =>
    rw [hscript] at hleads
    simp only [Play.act, World.collect, hi, hscript] at ha
    cases ha
    exact h.stay .refl hplace rfl h.reliable hawake (hmoved hleads)
  | note n next =>
    rw [hscript] at hleads
    simp only [Play.act, World.collect, hi, hscript] at ha
    cases ha
    have hnear : p.world.Near t (p.world.note n) := ⟨fun _ _ => rfl, fun _ => rfl⟩
    exact h.stay hnear hplace rfl h.reliable hawake (hmoved hleads)
  | meet others next =>
    rw [hscript] at hleads
    simp only [Play.act, World.collect, hi, hscript] at ha
    split at ha
    · cases ha
      exact h.stay .refl hplace rfl h.reliable hawake (hmoved hleads)
    · contradiction
  | stop result =>
    simp only [Play.act, World.collect, hi, hscript] at ha
    split at ha
    · contradiction
    · cases ha
      exact h.stay .refl (fun _ _ => rfl) rfl h.reliable hawake (h.sits t)

/-- A worker inside the barrier begins the next call. -/
theorem begin (h : Agrees parties spot P p m) (hs : Attends parties script spot) {w : Wait}
    (ho : spot (p.places.get t) = some w) (hw : ¬ w.Over)
    (hi : (p.world.thread t).stage = .idle)
    (hn : Sits parties (some w) .idle (p.world.guards t 0) (m.seats t)) :
    ∃ p', p.act script t pick = some p' ∧ Follows parties spot P p m t p' := by
  obtain ⟨here, next, _, hscript⟩ := hs.inside t _ w ho hw
  have hfollows {p' : Play Phase R σ} (hp' : Agrees parties spot P p' m) :
      Follows parties spot P p m t p' :=
    ⟨m, .inl rfl, hp', (visitsAfter_of_stage hi trivial).symm⟩
  generalize hgs : p.world.guards t 0 = gs, hseat : m.seats t = s at hn
  have hguard {g : Guard} (hg : p.world.guards t 0 = [g]) : p.world.guard? t 0 = some g := by
    rw [World.guard?, hg]
    rfl
  have hbegun {c : Call Phase} {f : Answer Phase → σ} {st : Stage Phase}
      (hc : script t (p.places.get t) = .call c f)
      (hb : p.world.begin t c = some (p.world.setStage t st)) (hawake : s.Awake)
      (hsits : Sits parties (some w) st gs s) :
      ∃ p', p.act script t pick = some p' ∧ Follows parties spot P p m t p' := by
    rw [Play.act_begin hi hc, hb]
    refine ⟨_, rfl, hfollows ?_⟩
    apply h.restage .refl rfl h.reliable (by rwa [hseat])
    rwa [ho, hgs, hseat]
  cases hn with
  | out hout => exact absurd (hout w rfl) hw
  | calling =>
    have hname : LockName.ofString? lockName = some pass.name := LockName.ofString?_text pass.name
    have hopen : p.world.opening t (.lock .waits 0 0 lockName 0) =
        some (.attempting .waits pass 0) := by
      simp only [World.opening, hname]
      rfl
    exact hbegun hscript (by simp only [World.begin, hi, hopen, Option.map_some]) trivial .asking
  | inside =>
    have hopen : p.world.opening t (.access 0 (Phase.arrive parties)) =
        some (.accessing pass (Phase.arrive parties)) := by
      rw [World.opening, hguard hgs]
      rfl
    exact hbegun hscript (by simp only [World.begin, hi, hopen, Option.map_some]) trivial .arriving
  | leading =>
    have hopen : p.world.opening t (.notifyAll 0) = some (.notifying 0 true) := rfl
    exact hbegun hscript (by simp only [World.begin, hi, hopen, Option.map_some]) trivial .notifying
  | @staying i =>
    have hopen : p.world.opening t (.waitWhile 0 0 (sameGeneration (i / parties))) =
        some (.judging 0 pass (sameGeneration (i / parties)) []) := by
      rw [World.opening, hguard hgs, Option.bind_some,
        if_neg (Bool.not_eq_true _ ▸ h.immune.poisons)]
    have hb : p.world.begin t (.waitWhile 0 0 (sameGeneration (i / parties))) =
        some (p.world.setStage t (.judging 0 pass (sameGeneration (i / parties)) [])) := by
      simp only [World.begin, hi, hopen, Option.map_some]
    exact hbegun hscript hb trivial .judging
  | done =>
    rw [Play.act_begin hi hscript]
    have hopen : p.world.opening t (.leave .dropped 0) = some (.leaving .dropped pass) := by
      rw [World.opening, hguard hgs]
      rfl
    simp only [World.begin, hi, hopen, Option.map_some, hgs]
    refine ⟨_, rfl, hfollows ?_⟩
    apply h.restage (World.Near.refl.setGuards 0 _) rfl h.reliable (by rw [hseat]; trivial)
    rw [ho, hseat, World.guards, World.thread_setGuards_self, Table.get_set_self]
    exact .leaving

/-- A worker inside the barrier gets the answer of a call. -/
theorem collect (h : Agrees parties spot P p m) (hs : Attends parties script spot) {w : Wait}
    (ho : spot (p.places.get t) = some w) (hw : ¬ w.Over) {a : Answer Phase}
    (hf : (p.world.thread t).stage = .finished a)
    (hn : Sits parties (some w) (.finished a) (p.world.guards t 0) (m.seats t)) :
    ∃ p', p.act script t pick = some p' ∧ Follows parties spot P p m t p' := by
  obtain ⟨here, next, hspot, hscript⟩ := hs.inside t _ w ho hw
  generalize hgs : p.world.guards t 0 = gs, hseat : m.seats t = s at hn
  have hplace {s : σ} : ∀ t' ≠ t, (p.places.set t s).get t' = p.places.get t' :=
    fun t' ht => Table.get_set_ne _ _ (Ne.symm ht)
  have hgone {w' : Wait} {s' : Seat} (hsits : Sits parties (some w') .idle gs s') :
      Sits parties (spot ((p.places.set t (here w')).get t))
        ((p.world.setStage t .idle).thread t).stage ((p.world.setStage t .idle).guards t 0) s' := by
    simpa [World.guards, hspot, ← hgs] using hsits
  have hmoved {w' : Wait} (hawake : s.Awake)
      (hsits : Sits parties (some w') .idle gs s) :
      Agrees parties spot P { p.move t (here w') with world := p.world.setStage t .idle } m := by
    apply h.stay (World.Near.refl.setStage _) hplace rfl h.reliable (by rwa [hseat])
    rw [hseat]
    exact hgone hsits
  cases hn with
  | locked =>
    rw [Play.act_collect hf hscript]
    exact ⟨_, rfl, m, .inl rfl, hmoved trivial .inside, by simp [visitsAfter, ho]⟩
  | last hv =>
    rw [Play.act_collect hf hscript]
    simp only [if_pos hv]
    exact ⟨_, rfl, m, .inl rfl, hmoved trivial .leading, by simp [visitsAfter, ho, hf]⟩
  | one hv hg =>
    rw [Play.act_collect hf hscript]
    simp only [if_neg hv, hg]
    exact ⟨_, rfl, m, .inl rfl, hmoved trivial .staying, by simp [visitsAfter, ho, hf]⟩
  | notified | waited =>
    rw [Play.act_collect hf hscript]
    exact ⟨_, rfl, m, .inl rfl, hmoved trivial .done, by simp [visitsAfter, ho]⟩
  | @left i leader =>
    rw [Play.act_collect hf hscript]
    have hover : Outside (some (Wait.ended (.ok leader))) := by
      rintro _ ⟨⟩
      trivial
    refine ⟨_, rfl, _, .inr (.answer hseat), ?_, by simp [visitsAfter, ho, hf, Play.move, hspot]⟩
    exact h.turn (World.Near.refl.setStage _) hplace h.phase h.holder h.immune h.reliable
      (by rw [hseat]; trivial) trivial (hgone (.out hover))

omit [Recorder R] in
/-- Some of the sleepers are called. -/
theorem call (h : Agrees parties spot P p m) {ws xs : List Waiter} {seats : ThreadId → Seat}
    (hcalled : ∀ t', (∃ x ∈ xs, x.thread = t') →
      ∃ i, m.seats t' = .parked i ∧ seats t' = .roused i)
    (hothers : ∀ t', (∀ x ∈ xs, x.thread ≠ t') → seats t' = m.seats t')
    (hws : ∀ x, x ∈ ws ↔ x.mutex = 0 ∧ ∃ i, seats x.thread = .parked i) :
    Agrees parties spot P { p with world := (p.world.setWaiters 0 ws).rouseAll xs }
      { m with seats := seats } where
  phase := (congrArg Mutex.value (World.mutex_rouseAll ..)).trans h.phase
  holder := (congrArg Mutex.holder (World.mutex_rouseAll ..)).trans h.holder
  immune := by
    rw [World.mutex_rouseAll, World.mutex_setWaiters]
    exact h.immune
  waiters x := by
    rw [World.waiters_rouseAll, World.waiters_setWaiters_self]
    exact hws x
  reliable := by
    have houter := World.outer_rouseAll (w := p.world.setWaiters 0 ws) xs
    rw [show World.recorder _ = p.world.recorder from congrArg Prod.fst houter]
    exact h.reliable
  sits t' := by
    have hn := h.sits t'
    by_cases hx : ∃ x ∈ xs, x.thread = t'
    · obtain ⟨i, hi, hseat⟩ := hcalled t' hx
      dsimp only
      rw [hseat]
      rw [hi] at hn
      generalize spot (p.places.get t') = o, hst : (p.world.thread t').stage = st,
        hgs : p.world.guards t' 0 = gs at hn ⊢
      cases hn with
      | parked =>
        rw [World.guards, World.thread_rouseAll_of_mem (w := p.world.setWaiters 0 ws) hx hst]
        change Sits parties _ _ (p.world.guards t' 0) _
        rw [hgs]
        exact .rejoining
    · have hnot : ∀ x ∈ xs, x.thread ≠ t' := fun x hxs ht => hx ⟨x, hxs, ht⟩
      dsimp only
      rw [World.guards, World.thread_rouseAll_of_notMem hnot, hothers t' hnot]
      exact hn

omit [Recorder R] in
/-- A sleeper wakes by itself. -/
theorem rouse (h : Agrees parties spot P p m) {w : World Phase R}
    (hr : p.world.rouse t = some w) :
    ∃ i, m.seats t = .parked i ∧
      Agrees parties spot P { p with world := w }
        { m with seats := update m.seats t (.roused i) } := by
  have hn := h.sits t
  generalize ho : spot (p.places.get t) = o, hst : (p.world.thread t).stage = st,
    hgs : p.world.guards t 0 = gs, hseat : m.seats t = s at hn
  simp only [World.rouse, hst] at hr
  cases hn with
  | @parked i seen =>
    cases hr
    refine ⟨i, rfl, h.call ?_ ?_ fun x => ?_⟩
    · rintro t' ⟨x, hx, rfl⟩
      have hxt : x.thread = t := by simpa using (List.mem_filter.mp hx).2
      exact ⟨i, by rw [hxt, hseat], by rw [hxt, update_self]⟩
    · intro t' ht
      have hwaits : ⟨t, 0⟩ ∈ p.world.waiters 0 := (h.waiters _).mpr ⟨rfl, i, hseat⟩
      have hne : t' ≠ t := by
        intro he
        refine ht ⟨t, 0⟩ (List.mem_filter.mpr ⟨hwaits, ?_⟩) he.symm
        exact decide_eq_true rfl
      exact update_of_ne hne ..
    · rw [List.mem_filter, h.waiters]
      by_cases hx : x.thread = t
      · simp [hx]
      · simp [hx]
  | _ => contradiction

omit [Recorder R] in
/-- A thread that has completed a generation wakes all sleepers. -/
theorem notify (h : Agrees parties spot P p m) {i : Nat}
    (ho : spot (p.places.get t) = some .notifying) (hg : p.world.guards t 0 = [pass])
    {w : World Phase R}
    (hw : w = (p.world.setWaiters 0 []).rouseAll (p.world.waiters 0)) (k : Nat) :
    Agrees parties spot P { p with world := w.finish t (.count k) }
      { m with seats := update (fun t' => (m.seats t').rouse) t (.leaving i true) } := by
  have hcalled : Agrees parties spot P { p with world := w }
      { m with seats := fun t' => (m.seats t').rouse } := by
    rw [hw]
    refine h.call ?_ ?_ fun x => ?_
    · rintro t' ⟨x, hx, rfl⟩
      obtain ⟨j, hj⟩ := ((h.waiters x).mp hx).2
      exact ⟨j, hj, by rw [hj]; rfl⟩
    · intro t' ht
      cases hs : m.seats t' with
      | parked j => exact absurd rfl (ht ⟨t', 0⟩ ((h.waiters _).mpr ⟨rfl, j, hs⟩))
      | _ => rfl
    · exact iff_of_false List.not_mem_nil fun hx => (Seat.awake_rouse _).ne _ hx.2.choose_spec
  have hguards : w.guards t 0 = [pass] := by
    have hroused := World.thread_rouseAll (p.world.setWaiters 0 []) (p.world.waiters 0) t
    rw [← hw] at hroused
    rw [World.guards, World.guards_roused hroused]
    exact hg
  refine hcalled.turn (World.Near.refl.setStage _) (fun _ _ => rfl) hcalled.phase hcalled.holder
    hcalled.immune hcalled.reliable (Seat.awake_rouse _) trivial ?_
  rw [World.guards, World.thread_setStage_self, ho]
  change Sits parties _ _ (w.guards t 0) _
  rw [hguards]
  exact .notified

section Mutex

variable {st : Stage Phase} {s : Seat}

omit [Recorder R] in
/-- A thread gets the mutex. -/
theorem take (h : Agrees parties spot P p m) (ht : (m.seats t).Awake)
    (hs : s.Awake)
    (hsits : Sits parties (spot (p.places.get t)) st (p.world.guards t 0) s) :
    Agrees parties spot P { p with world := (p.world.take t 0).setStage t st }
      { m with holder := some t, seats := update m.seats t s } := by
  have hmutex := World.mutex_take_self p.world t 0
  apply h.turn ((World.Near.refl.setMutex 0 _).setStage st) (fun _ _ => rfl)
  · exact (congrArg Mutex.value hmutex).trans h.phase
  · exact congrArg Mutex.holder hmutex
  · change ((p.world.take t 0).mutex 0).Immune
    rw [hmutex]
    exact Mutex.lasting_immune.take _ t h.immune
  · exact h.reliable
  · exact ht
  · exact hs
  · rw [World.guards, World.thread_setStage_self]
    exact hsits

omit [Recorder R] in
/-- A thread changes what the mutex protects. -/
theorem setValue (h : Agrees parties spot P p m) {v : Phase} {visits : List Visit}
    (ht : (m.seats t).Awake) (hs : s.Awake)
    (hsits : Sits parties (spot (p.places.get t)) st (p.world.guards t 0) s) :
    Agrees parties spot P
      { p with world := (p.world.setMutex 0 { p.world.mutex 0 with value := v }).setStage t st }
      ⟨v, m.holder, update m.seats t s, visits⟩ := by
  have hmutex : (p.world.setMutex 0 { p.world.mutex 0 with value := v }).mutex 0 =
      { p.world.mutex 0 with value := v } := by
    rw [World.mutex_setMutex, if_pos rfl]
  apply h.turn ((World.Near.refl.setMutex 0 _).setStage st) (fun _ _ => rfl)
  · exact congrArg Mutex.value hmutex
  · exact (congrArg Mutex.holder hmutex).trans h.holder
  · rw [World.mutex_setStage, hmutex]
    exact Mutex.lasting_immune.value _ v h.immune
  · exact h.reliable
  · exact ht
  · exact hs
  · rw [World.guards, World.thread_setStage_self]
    exact hsits

omit [Recorder R] in
/-- A thread that leaves the barrier gives up the mutex. -/
theorem free (h : Agrees parties spot P p m) (ht : (m.seats t).Awake)
    (hs : s.Awake)
    (hsits : Sits parties (spot (p.places.get t)) st (p.world.guards t 0) s) :
    Agrees parties spot P { p with world := (p.world.free 0 false).setStage t st }
      { m with holder := none, seats := update m.seats t s } := by
  have hmutex := World.mutex_free_self p.world 0 false
  apply h.turn ((World.Near.refl.setMutex 0 _).setStage st) (fun _ _ => rfl)
  · exact (congrArg Mutex.value hmutex).trans h.phase
  · exact congrArg Mutex.holder hmutex
  · change ((p.world.free 0 false).mutex 0).Immune
    rw [hmutex]
    exact Mutex.lasting_immune.free _ false h.immune
  · exact h.reliable
  · exact ht
  · exact hs
  · rw [World.guards, World.thread_setStage_self]
    exact hsits

end Mutex

omit [Recorder R] in
/-- A thread that has seen the generation unchanged falls asleep. -/
theorem park (h : Agrees parties spot P p m) {i : Nat} {seen : List Phase}
    (ho : spot (p.places.get t) = some (.waiting (i / parties)))
    (hg : p.world.guards t 0 = [pass]) :
    Agrees parties spot P
      { p with
        world := ((p.world.free 0 false).setWaiters 0 (p.world.waiters 0 ++ [⟨t, 0⟩])).setStage t
          (.parked 0 pass (some (sameGeneration (i / parties), seen))) }
      { m with holder := none, seats := update m.seats t (.parked i) } where
  phase := (congrArg Mutex.value (World.mutex_free_self ..)).trans h.phase
  holder := congrArg Mutex.holder (World.mutex_free_self ..)
  immune := by
    change ((p.world.free 0 false).mutex 0).Immune
    rw [World.mutex_free_self]
    exact Mutex.lasting_immune.free _ false h.immune
  waiters x := by
    change x ∈ ((p.world.free 0 false).setWaiters 0 _).waiters 0 ↔
      x.mutex = 0 ∧ ∃ j, update m.seats t (.parked i) x.thread = .parked j
    rw [World.waiters_setWaiters_self, List.mem_append, List.mem_singleton, h.waiters]
    obtain ⟨t', mutex⟩ := x
    by_cases hx : t' = t
    · subst hx
      simp only [update_self, Waiter.mk.injEq, true_and]
      exact ⟨fun hm => ⟨hm.elim (·.1) id, i, rfl⟩, fun hm => .inr hm.1⟩
    · rw [update_of_ne hx]
      refine or_iff_left ?_
      intro he
      exact hx (congrArg Waiter.thread he)
  reliable := h.reliable
  sits t' := by
    dsimp only
    by_cases ht : t' = t
    · subst ht
      rw [update_self, World.guards, World.thread_setStage_self, ho]
      change Sits parties _ _ (p.world.guards t' 0) _
      rw [hg]
      exact .parked
    · rw [update_of_ne ht, World.guards, World.thread_setStage_ne _ (Ne.symm ht)]
      exact h.sits t'

/-- A worker goes on with a call of the barrier. -/
theorem advance (h : Agrees parties spot P p m) (hm : m.Sound parties) (hr : Recorder.Keeps 0 P)
    {w : Wait} (ho : spot (p.places.get t) = some w) {st : Stage Phase}
    (hst : (p.world.thread t).stage = st)
    (hn : Sits parties (some w) st (p.world.guards t 0) (m.seats t)) {w' : World Phase R}
    (hstep : p.world.Step t st w') : Follows parties spot P p m t { p with world := w' } := by
  generalize hgs : p.world.guards t 0 = gs, hseat : m.seats t = s at hn
  have hemit {k : Kind} {name : LockName} {r : Except TraceError Unit} {w₁ : World Phase R}
      (he : p.world.emit t 0 k name = (r, w₁)) : r = .ok () ∧ p.world.Near t w₁ ∧
        (∀ m, w₁.mutex m = p.world.mutex m) ∧ w₁.guards t 0 = gs ∧ P w₁.recorder := by
    obtain ⟨w₂, he', hnear, hmutex, hguards, hrec⟩ := p.world.exists_emit hr h.reliable t k name
    rw [he'] at he
    obtain ⟨rfl, rfl⟩ := Prod.mk.inj he
    exact ⟨rfl, hnear, hmutex, by rw [← hgs, World.guards, hguards]; rfl, hrec⟩
  -- a record that is made in the middle of a call
  have hrecorded {k : Kind} {name : LockName} {r : Except TraceError Unit} {w₁ : World Phase R}
      {s' : Stage Phase} (he : p.world.emit t 0 k name = (r, w₁)) (hawake : s.Awake)
      (hu : Unremarkable st) (hsits : Sits parties (some w) s' gs s) :
      Follows parties spot P p m t { p with world := w₁.setStage t s' } := by
    obtain ⟨_, hnear, hmutex, hguards, hrec⟩ := hemit he
    refine ⟨m, .inl rfl, ?_, (visitsAfter_of_stage hst hu).symm⟩
    apply h.restage hnear (hmutex 0) hrec (by rwa [hseat])
    rwa [ho, hseat, hguards]
  cases hn with
  | out | calling | inside | leading | staying | done => cases hstep
  | locked | last | one | notified | waited | left | parked => cases hstep
  | asking =>
    cases hstep with
    | attempted he => exact hrecorded he trivial trivial .awaiting
    | unattempted he => cases (hemit he).1
  | awaiting =>
    cases hstep with
    | poisoned _ hp =>
      rw [show pass.mutex = 0 from rfl, h.immune.poisoned] at hp
      contradiction
    | acquired hf =>
      rw [show pass.mutex = 0 from rfl, h.holder] at hf
      refine ⟨_, .inr (.enter hseat hf), ?_, (visitsAfter_of_stage hst trivial).symm⟩
      refine h.take (by rw [hseat]; trivial) trivial ?_
      rw [ho, hgs]
      exact .admitted
  | admitted =>
    cases hstep with
    | recorded he =>
      obtain ⟨_, hnear, hmutex, hguards, hrec⟩ := hemit he
      refine ⟨m, .inl rfl, ?_, (visitsAfter_of_stage hst trivial).symm⟩
      apply h.restage (hnear.setGuards 0 _) (hmutex 0) hrec (by rw [hseat]; trivial)
      rw [ho, hseat, World.guards, World.thread_setGuards_self, Table.get_set_self, hguards]
      exact .locked
    | unrecorded he => cases (hemit he).1
  | arriving =>
    cases hstep with
    | accessed hv =>
      rw [show pass.mutex = 0 from rfl, h.phase] at hv
      have hvisits (p' : Play Phase R σ) : m.visits ++ [⟨t, m.phase.generation, none⟩] =
          visitsAfter spot m.visits p p' t := by
        simp [visitsAfter, hst, ho, h.phase]
      by_cases hp : m.phase.arrived + 1 = parties
      · refine ⟨_, .inr (.lead hseat hp), ?_, hvisits _⟩
        rw [hv]
        refine h.setValue (by rw [hseat]; trivial) trivial ?_
        rw [ho, hgs]
        refine .last ?_
        rw [← hv, Phase.arrive, if_pos hp]
      · refine ⟨_, .inr (.join hseat hp), ?_, hvisits _⟩
        rw [hv]
        refine h.setValue (by rw [hseat]; trivial) trivial ?_
        rw [ho, hgs]
        rw [Phase.arrive, if_neg hp] at hv
        subst hv
        refine .one (Nat.succ_ne_zero _) ?_
        have ha := hm.arrived
        rw [hm.count, Nat.mul_add_div (by omega), Nat.div_eq_of_lt ha]
        rfl
  | notifying =>
    cases hstep with
    | notifiedAll =>
      refine ⟨_, .inr (.notify hseat), ?_, (visitsAfter_of_stage hst trivial).symm⟩
      exact h.notify ho hgs rfl _
  | @judging i seen =>
    cases hstep with
    | again hv =>
      obtain ⟨hsame, rfl⟩ := Prod.mk.inj hv
      have hg : m.phase.generation = i / parties := by
        rw [← h.phase]
        exact of_decide_eq_true hsame
      refine ⟨_, .inr (.doze hseat hg), ?_, (visitsAfter_of_stage hst trivial).symm⟩
      rw [show pass.mutex = 0 from rfl, h.phase]
      refine h.setValue (by rw [hseat]; trivial) trivial ?_
      rw [ho, hgs]
      exact .waiting
    | enough hv =>
      obtain ⟨hother, rfl⟩ := Prod.mk.inj hv
      have hg : m.phase.generation ≠ i / parties := by
        rw [← h.phase]
        exact of_decide_eq_false hother
      refine ⟨_, .inr (.pass hseat hg), ?_, (visitsAfter_of_stage hst trivial).symm⟩
      rw [show pass.mutex = 0 from rfl, h.phase]
      refine h.setValue (by rw [hseat]; trivial) trivial ?_
      rw [ho, hgs]
      exact .waited
  | waiting =>
    cases hstep with
    | slept he => exact hrecorded he trivial trivial .parking
    | unslept he => cases (hemit he).1
  | parking =>
    cases hstep with
    | mixed hx =>
      obtain ⟨x, hx, hne⟩ := List.any_eq_true.mp hx
      exact absurd ((h.waiters x).mp hx).1 (of_decide_eq_true hne)
    | parked _ =>
      refine ⟨_, .inr (.park hseat), ?_, (visitsAfter_of_stage hst trivial).symm⟩
      exact h.park ho hgs
  | rejoining =>
    cases hstep with
    | rejoined hf =>
      rw [show pass.mutex = 0 from rfl, h.holder] at hf
      refine ⟨_, .inr (.rejoin hseat hf), ?_, (visitsAfter_of_stage hst trivial).symm⟩
      refine h.take (by rw [hseat]; trivial) trivial ?_
      rw [ho, hgs]
      exact .waking
  | waking =>
    cases hstep with
    | resumed he => exact hrecorded he trivial trivial .judging
    | unwoken he => cases (hemit he).1
  | leaving =>
    cases hstep with
    | left he =>
      obtain ⟨rfl, _⟩ := hemit he
      exact hrecorded he trivial trivial .freeing
  | freeing =>
    cases hstep with
    | freed =>
      refine ⟨_, .inr (.leave hseat), ?_, (visitsAfter_of_stage hst trivial).symm⟩
      refine h.free (by rw [hseat]; trivial) trivial ?_
      rw [ho, hgs]
      exact .left

/-- Inside the barrier only a sleeper and one who waits for the mutex cannot go on. -/
theorem exists_advance (h : Agrees parties spot P p m) {w : Wait} {st : Stage Phase}
    (hst : (p.world.thread t).stage = st)
    (hn : Sits parties (some w) st (p.world.guards t 0) (m.seats t)) (hi : st ≠ .idle)
    (hf : ∀ a, st ≠ .finished a) (hp : (m.seats t).Awake)
    (hfree : m.holder = none ∨ (m.seats t).Holds) : ∃ w', p.world.advance t pick = some w' := by
  generalize hgs : p.world.guards t 0 = gs, hseat : m.seats t = s at hn
  rw [hseat] at hp hfree
  have hnone (hs : ¬ s.Holds) : (p.world.mutex pass.mutex).holder = none :=
    h.holder.trans (hfree.resolve_right hs)
  cases hn with
  | out | calling | inside | leading | staying | done => exact absurd rfl hi
  | locked | last | one | notified | waited | left => exact absurd rfl (hf _)
  | parked => exact hp.elim
  | asking | admitted | arriving | notifying | judging | waiting | parking | waking | leaving
  | freeing =>
    simp only [World.advance, hst]
    exact ⟨_, rfl⟩
  | awaiting =>
    simp only [World.advance, hst, hnone id]
    exact ⟨_, rfl⟩
  | rejoining =>
    simp only [World.advance, hst, hnone id]
    exact ⟨_, rfl⟩

/-- A worker inside the barrier goes on, unless it sleeps or waits for the mutex. -/
theorem exists_act (h : Agrees parties spot P p m) (hs : Attends parties script spot)
    (ho : ¬ Outside (spot (p.places.get t))) (hp : (m.seats t).Awake)
    (hfree : m.holder = none ∨ (m.seats t).Holds) : ∃ p', p.act script t pick = some p' := by
  obtain ⟨w, hw, hover⟩ : ∃ w, spot (p.places.get t) = some w ∧ ¬ w.Over := by
    simpa [Outside] using ho
  have hn := h.sits t
  rw [hw] at hn
  by_cases hi : (p.world.thread t).stage = .idle
  · rw [hi] at hn
    obtain ⟨p', ha, _⟩ := h.begin hs hw hover hi hn
    exact ⟨p', ha⟩
  · by_cases hf : ∃ a, (p.world.thread t).stage = .finished a
    · obtain ⟨a, hf⟩ := hf
      rw [hf] at hn
      obtain ⟨p', ha, _⟩ := h.collect hs hw hover hf hn
      exact ⟨p', ha⟩
    · have hf' := fun a ha => hf ⟨a, ha⟩
      obtain ⟨w', hw'⟩ := h.exists_advance rfl hn hi hf' hp hfree
      rw [Play.act_advance hi hf', hw']
      exact ⟨_, rfl⟩

/-- Whatever a worker does is a turn, or nothing to the others. -/
theorem act (h : Agrees parties spot P p m) (hm : m.Sound parties)
    (hs : Attends parties script spot) (hr : Recorder.Keeps 0 P)
    (ha : p.act script t pick = some p') : Follows parties spot P p m t p' := by
  have hn := h.sits t
  by_cases ho : Outside (spot (p.places.get t))
  · obtain ⟨hi, hg, hseat⟩ := hn.of_outside ho
    exact h.out hs ho hi hg hseat ha
  · obtain ⟨w, hw, hover⟩ : ∃ w, spot (p.places.get t) = some w ∧ ¬ w.Over := by
      simpa [Outside] using ho
    rw [hw] at hn
    by_cases hi : (p.world.thread t).stage = .idle
    · rw [hi] at hn
      obtain ⟨p₁, ha₁, hfollows⟩ := h.begin hs hw hover hi hn
      rw [ha₁] at ha
      cases ha
      exact hfollows
    · by_cases hf : ∃ a, (p.world.thread t).stage = .finished a
      · obtain ⟨a, hf⟩ := hf
        rw [hf] at hn
        obtain ⟨p₁, ha₁, hfollows⟩ := h.collect hs hw hover hf hn
        rw [ha₁] at ha
        cases ha
        exact hfollows
      · rw [Play.act_advance hi (fun a ha => hf ⟨a, ha⟩)] at ha
        obtain ⟨w', hw', rfl⟩ := Option.map_eq_some_iff.mp ha
        exact h.advance hm hr hw rfl hn (World.step_of_advance hw')

end Agrees

end Barrier

end LockTrace
