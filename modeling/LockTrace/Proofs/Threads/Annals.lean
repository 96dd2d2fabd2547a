import LockTrace.Proofs.Threads.Grasp
import LockTrace.Proofs.Threads.Run

namespace LockTrace

open scoped List
open Function (update update_self update_of_ne update_idem)

variable {V R : Type}

namespace Tenure

/-- Things that happen to guards one after the other, and where that leaves all of them. -/
inductive Path : (Guard → Tenure) → List (Guard × Feat V) → (Guard → Tenure) → Prop
  | nil {T : Guard → Tenure} : Path T [] T
  | cons {T T' : Guard → Tenure} {g : Guard} {f : Feat V} {p : Tenure}
      {fs : List (Guard × Feat V)} (hs : Step g.name (T g) f p) (h : Path (update T g p) fs T') :
      Path T ((g, f) :: fs) T'

theorem Path.one {T T' : Guard → Tenure} {g : Guard} {f : Feat V} {p p' : Tenure}
    (hs : Step g.name p f p') (hp : T g = p) (he : update T g p' = T') : Path T [(g, f)] T' := by
  subst hp he
  exact .cons hs .nil

end Tenure

open Tenure (Path Life)

/-- What happens to one of the guards. -/
def about (g : Guard) (fs : List (Guard × Feat V)) : List (Feat V) :=
  fs.filterMap fun x => if x.1 = g then some x.2 else none

theorem Tenure.Life.follow {T T' : Guard → Tenure} {fs : List (Guard × Feat V)}
    {past : Guard → List (Feat V)} (h : ∀ g, Life g.name (past g) (T g)) (hp : Path T fs T')
    (g : Guard) : Life g.name (past g ++ about g fs) (T' g) := by
  induction hp generalizing past with
  | nil =>
    rw [about, List.filterMap_nil, List.append_nil]
    exact h g
  | @cons T T' g' f p fs hs _ ih =>
    have hg' : about g ((g', f) :: fs) = about g [(g', f)] ++ about g fs := by
      rw [about, about, about, ← List.filterMap_append]
      rfl
    have hlife (x : Guard) : Life x.name (past x ++ about x [(g', f)]) (update T g' p x) := by
      by_cases hx : x = g'
      · subst hx
        rw [update_self]
        simpa [about] using (h x).step hs
      · rw [update_of_ne hx]
        simpa [about, Ne.symm hx] using h x
    rw [hg', ← List.append_assoc]
    exact ih hlife

namespace World

/-- What happens to guards when a thread begins a call: the owner of a guard lets it go. -/
def letsGo (w : World V R) (t : ThreadId) : Call V → List (Guard × Feat V)
  | .leave how slot => (w.guard? t slot).toList.map (·, .left how)
  | _ => []

/-- By a move from one world to another a thread gets hold of a mutex. -/
def gains (w : World V R) (t : ThreadId) (m : MutexId) (w' : World V R) : Bool :=
  w.holder m ≠ some t ∧ w'.holder m = some t

/-- By a move from one world to another a thread loses hold of a mutex. -/
def loses (w : World V R) (t : ThreadId) (m : MutexId) (w' : World V R) : Bool :=
  w.holder m = some t ∧ w'.holder m ≠ some t

/-- What happens to guards when a thread moves inside a call from one world to another. -/
def feats [Recorder R] (w : World V R) (t : ThreadId) (w' : World V R) : List (Guard × Feat V) :=
  let result (k : Kind) (g : Guard) := (w.emit t g.emitter k g.name).1
  match (w.thread t).stage with
  | .acquiring _ g _ => if w.gains t g.mutex w' then [(g, .took)] else []
  | .recording g _ => [(g, .emitted .acquired (result .acquired g))]
  | .yielding g _ => if w.loses t g.mutex w' then [(g, .freed)] else []
  | .accessing g _ | .judging _ g _ _ => [(g, .used)]
  | .waiting _ g _ => [(g, .emitted .wait (result .wait g))]
  | .parking _ g _ => if w.loses t g.mutex w' then [(g, .lent)] else [(g, .broke)]
  | .rejoining _ g _ => if w.gains t g.mutex w' then [(g, .regained)] else []
  | .waking _ g _ => [(g, .emitted .woken (result .woken g))]
  | .leaving _ g => [(g, .emitted .released (result .released g))]
  | .freeing _ g _ =>
    (if w.loses t g.mutex w' then [(g, .freed)] else []) ++
      match (w'.thread t).stage with
      | .finished a => [(g, .ended a (w'.notices.drop w.notices.length))]
      | _ => []
  | _ => []

/-- The worlds that threads come to, by any calls and in any order of moves, with all that has
happened to guards on the way. Sleepers may wake without being called, and between the moves the
recorder may drift by itself. -/
inductive Annals [Recorder R] (drift : R → R → Prop) (w₀ : World V R) :
    List (ThreadId × Guard × Feat V) → World V R → Prop
  | start : Annals drift w₀ [] w₀
  | begin {xs : List (ThreadId × Guard × Feat V)} {w w' : World V R} (t : ThreadId)
      (call : Call V) (h : Annals drift w₀ xs w) (hb : w.begin t call = some w') :
      Annals drift w₀ (xs ++ (w.letsGo t call).map (t, ·)) w'
  | advance {xs : List (ThreadId × Guard × Feat V)} {w w' : World V R} (t : ThreadId)
      (pick : List Waiter → Option Waiter) (h : Annals drift w₀ xs w)
      (ha : w.advance t pick = some w') :
      Annals drift w₀ (xs ++ (w.feats t w').map (t, ·)) w'
  | rouse {xs : List (ThreadId × Guard × Feat V)} {w w' : World V R} (t : ThreadId)
      (h : Annals drift w₀ xs w) (hr : w.rouse t = some w') : Annals drift w₀ xs w'
  | collect {xs : List (ThreadId × Guard × Feat V)} {w w' : World V R} (t : ThreadId)
      (a : Answer V) (h : Annals drift w₀ xs w) (hc : w.collect t = some (a, w')) :
      Annals drift w₀ xs w'
  | drift {xs : List (ThreadId × Guard × Feat V)} {w : World V R} (r : R)
      (h : Annals drift w₀ xs w) (hd : drift w.recorder r) :
      Annals drift w₀ xs { w with recorder := r }

end World

/-- What has happened to the guard of a thread. -/
def tale (t : ThreadId) (g : Guard) (xs : List (ThreadId × Guard × Feat V)) : List (Feat V) :=
  xs.filterMap fun x => if x.1 = t ∧ x.2.1 = g then some x.2.2 else none

theorem tale_append_self (t : ThreadId) (g : Guard) (xs : List (ThreadId × Guard × Feat V))
    (fs : List (Guard × Feat V)) : tale t g (xs ++ fs.map (t, ·)) = tale t g xs ++ about g fs := by
  rw [tale, List.filterMap_append, List.filterMap_map, about]
  congr 2
  funext x
  simp

theorem tale_append_ne {t t' : ThreadId} (ht : t' ≠ t) (g : Guard)
    (xs : List (ThreadId × Guard × Feat V)) (fs : List (Guard × Feat V)) :
    tale t' g (xs ++ fs.map (t, ·)) = tale t' g xs := by
  have hnil : tale t' g (fs.map (t, ·)) = [] := by
    rw [tale, List.filterMap_map, List.filterMap_eq_nil_iff]
    exact fun x _ => if_neg fun h => ht h.1.symm
  rw [tale, List.filterMap_append, ← tale, ← tale, hnil, List.append_nil]

namespace World

/-- In this world the threads stand with guards where what has happened has left them, and they have
the mutexes that go with it. -/
structure Stands (w : World V R) (xs : List (ThreadId × Guard × Feat V)) : Prop where
  rest : ∀ t, (w.thread t).guards.rest = []
  grasp : ∀ t, Grasp w.holder t (w.thread t).kept (w.thread t).stage
  life : ∀ t g, Life g.name (tale t g xs) ((w.thread t).stage.tenure (w.thread t).kept g)

/-- What a move of a thread makes of its guards. -/
structure Goes (w : World V R) (t : ThreadId) (fs : List (Guard × Feat V)) (w' : World V R) :
    Prop where
  beside : Beside t w w'
  rest : (w'.thread t).guards.rest = []
  grasp : Grasp w'.holder t (w'.thread t).kept (w'.thread t).stage
  path : Path ((w.thread t).stage.tenure (w.thread t).kept) fs
    ((w'.thread t).stage.tenure (w'.thread t).kept)

variable {w w' w₁ : World V R} {xs : List (ThreadId × Guard × Feat V)} {t : ThreadId}
  {fs : List (Guard × Feat V)} {s : Stage V} {g : Guard}

theorem works_roused {th th' : Thread V} (h : Roused th th') :
    th'.stage.works = th.stage.works := by
  rcases h with rfl | ⟨c, g, resume, hs, rfl⟩
  · rfl
  · rw [hs]
    rfl

theorem tenure_roused {th th' : Thread V} (h : Roused th th') :
    th'.stage.tenure th'.kept = th.stage.tenure th.kept := by
  rcases h with rfl | ⟨c, g, resume, hs, rfl⟩
  · rfl
  · rw [hs]
    rfl

theorem kept_roused {th th' : Thread V} (h : Roused th th') : th'.kept = th.kept := by
  rw [Thread.kept, guards_roused h]
  rfl

/-- A sleeper that is woken has what it had. -/
theorem grasp_roused {holder : MutexId → Option ThreadId} {th th' : Thread V} (hr : Roused th th')
    (h : Grasp holder t th.kept th.stage) : Grasp holder t th'.kept th'.stage := by
  rw [kept_roused hr]
  have hv := view_roused hr
  refine h.same (congrArg View.carried hv) (congrArg View.lent hv) ?_
  rw [works_roused hr]
  exact h.works

/-- What a thread has at a stage. -/
theorem Stands.grasp_at (h : w.Stands xs) (hs : (w.thread t).stage = s) :
    Grasp w.holder t (w.thread t).kept s := hs ▸ h.grasp t

theorem Stands.go (h : w.Stands xs) (hg : w.Goes t fs w') :
    w'.Stands (xs ++ fs.map (t, ·)) where
  rest t' := by
    by_cases ht : t' = t
    · rw [ht]
      exact hg.rest
    · rw [guards_roused (hg.beside.others t' ht)]
      exact h.rest t'
  grasp t' := by
    by_cases ht : t' = t
    · rw [ht]
      exact hg.grasp
    · exact (grasp_roused (hg.beside.others t' ht) (h.grasp t')).frame (hg.beside.holders t' ht)
  life t' g := by
    by_cases ht : t' = t
    · subst ht
      rw [tale_append_self]
      exact Life.follow (h.life t') hg.path g
    · rw [tale_append_ne ht, tenure_roused (hg.beside.others t' ht)]
      exact h.life t' g

/-- A move that ends in a new stage and leaves the slots as they are. -/
theorem Stands.stage (h : w.Stands xs) (hb : Beside t w w₁)
    (hg : (w₁.thread t).guards = (w.thread t).guards)
    (self : Grasp w₁.holder t (w.thread t).kept s)
    (path : Path ((w.thread t).stage.tenure (w.thread t).kept) fs
      (s.tenure (w.thread t).kept)) : w.Goes t fs (w₁.setStage t s) := by
  have hkept : (w₁.thread t).kept = (w.thread t).kept := by rw [Thread.kept, hg]; rfl
  refine ⟨hb.setStage s, ?_, ?_, ?_⟩
  all_goals rw [thread_setStage_self]
  · rw [hg]
    exact h.rest t
  · change Grasp w₁.holder t (w₁.thread t).kept s
    rw [hkept]
    exact self
  · change Path _ _ (s.tenure (w₁.thread t).kept)
    rw [hkept]
    exact path

/-- A move that fills a slot anew and ends in a new stage. -/
theorem Stands.slots (h : w.Stands xs) (hb : Beside t w w₁)
    (hg : (w₁.thread t).guards = (w.thread t).guards) (slot : Slot) (gs : List Guard)
    {kept : List Guard}
    (hk : ({ w.thread t with guards := (w.thread t).guards.set slot gs } : Thread V).kept = kept)
    (self : Grasp w₁.holder t kept s)
    (path : Path ((w.thread t).stage.tenure (w.thread t).kept) fs (s.tenure kept)) :
    w.Goes t fs ((w₁.setGuards t slot gs).setStage t s) := by
  subst hk
  refine ⟨(hb.setGuards slot gs).setStage s, ?_, ?_, ?_⟩
  all_goals rw [thread_setStage_self, thread_setGuards_self, hg]
  · exact h.rest t
  · exact self
  · exact path

/-- A move between stages without a guard in hand changes nothing about the guards. -/
theorem Stands.quiet (h : w.Stands xs) (hb : Beside t w w₁)
    (hg : (w₁.thread t).guards = (w.thread t).guards)
    (hh : ∀ m, w.holder m = some t → w₁.holder m = some t) (hs : (w.thread t).stage.Bare)
    (hs' : s.Bare) : w.Goes t [] (w₁.setStage t s) := by
  refine h.stage hb hg (((h.grasp t).frame hh).same ?_ ?_ fun g hg => ?_) ?_
  · rw [hs.carried, hs'.carried]
  · rw [hs.lent, hs'.lent]
  · rw [hs'.works] at hg
    contradiction
  · rw [Stage.tenure, Stage.tenure, hs.tenure, hs'.tenure]
    exact .nil

theorem holder_free_of_ne (w : World V R) {m : MutexId} {unwinding : Bool} (m' : MutexId)
    (hm : m' ≠ m) (h : w.holder m' = some t) : (w.free m unwinding).holder m' = some t := by
  rw [holder_free, if_neg (Ne.symm hm)]
  exact h

theorem holder_take_of_holds (w : World V R) {m : MutexId} (m' : MutexId)
    (h : w.holder m' = some t) : (w.take t m).holder m' = some t := by
  rw [holder_take]
  split
  · rfl
  · exact h

/-- The last call of a guard ends as it should by the result of its record. -/
theorem closing_eq (w : World V R) (t : ThreadId) (how : Leave) (g : Guard)
    (r : Except TraceError Unit) : ∃ (a : Answer V) (said : List Notice), how.Ends g.name r a said ∧
      w.closing t how g r = { w with notices := w.notices ++ said }.finish t a := by
  cases how with
  | released =>
    refine ⟨_, [], ⟨rfl, rfl⟩, ?_⟩
    rw [closing, List.append_nil]
  | dropped =>
    refine ⟨_, _, ⟨rfl, rfl⟩, ?_⟩
    cases r with
    | ok => rw [closing, lost, List.append_nil]; rfl
    | error e => rfl
  | unwound =>
    refine ⟨_, _, ⟨rfl, rfl⟩, ?_⟩
    cases r with
    | ok => rw [closing, lost, List.append_nil]; rfl
    | error e => rfl

section Holders

variable {m : MutexId}

theorem gains_of_none (hf : w.holder m = none) (hg : w'.holder m = some t) :
    w.gains t m w' = true := by
  simp [gains, hf, hg]

theorem gains_of_eq (h : w'.holder m = w.holder m) : w.gains t m w' = false := by
  simp [gains, h]

theorem loses_of_none (hg : w.holder m = some t) (hf : w'.holder m = none) :
    w.loses t m w' = true := by
  simp [loses, hf, hg]

theorem loses_of_eq (h : w'.holder m = w.holder m) : w.loses t m w' = false := by
  simp [loses, h]

end Holders

section Advance

variable [Recorder R] {pick : List Waiter → Option Waiter}

theorem goes_emitting {e : EmitterId} {k : Kind} {name : LockName} (h : w.Stands xs)
    (hs : (w.thread t).stage = .emitting e k name) (hw : w.Step t (.emitting e k name) w') :
    w.Goes t (w.feats t w') w' := by
  have hbare : (w.thread t).stage.Bare := hs ▸ ⟨rfl, rfl, rfl, rfl⟩
  simp only [feats, hs]
  cases hw with
  | emitted he =>
    obtain ⟨hb, hg, hh, _⟩ := uttered (g := ⟨0, name, e⟩) he
    exact h.quiet hb hg (fun m hm => hh ▸ hm) hbare ⟨rfl, rfl, rfl, rfl⟩

theorem goes_attempting {p : Patience} {slot : Slot} (h : w.Stands xs)
    (hs : (w.thread t).stage = .attempting p g slot) (hw : w.Step t (.attempting p g slot) w') :
    w.Goes t (w.feats t w') w' := by
  have hbare : (w.thread t).stage.Bare := hs ▸ ⟨rfl, rfl, rfl, rfl⟩
  simp only [feats, hs]
  cases hw with
  | attempted he | unattempted he =>
    obtain ⟨hb, hg, hh, _⟩ := uttered he
    exact h.quiet hb hg (fun m hm => hh ▸ hm) hbare ⟨rfl, rfl, rfl, rfl⟩

theorem goes_refusing (h : w.Stands xs) (hs : (w.thread t).stage = .refusing g)
    (hw : w.Step t (.refusing g) w') : w.Goes t (w.feats t w') w' := by
  have hbare : (w.thread t).stage.Bare := hs ▸ ⟨rfl, rfl, rfl, rfl⟩
  simp only [feats, hs]
  cases hw with
  | refused he | unrefused he =>
    obtain ⟨hb, hg, hh, _⟩ := uttered he
    exact h.quiet hb hg (fun m hm => hh ▸ hm) hbare ⟨rfl, rfl, rfl, rfl⟩

theorem goes_acquiring {p : Patience} {slot : Slot} (h : w.Stands xs)
    (hs : (w.thread t).stage = .acquiring p g slot) (hw : w.Step t (.acquiring p g slot) w') :
    w.Goes t (w.feats t w') w' := by
  have hb := Beside.refl t w
  have hself := h.grasp_at hs
  have stays {s : Stage V} (hs' : s.Bare) :
      w.Goes t (w.feats t (w.setStage t s)) (w.setStage t s) := by
    have hgain : w.gains t g.mutex (w.setStage t s) = false := gains_of_eq rfl
    simp only [feats, hs, hgain, Bool.false_eq_true, if_false]
    exact h.quiet hb rfl (fun m hm => hm) (hs ▸ ⟨rfl, rfl, rfl, rfl⟩) hs'
  -- a kept guard of this mutex would have it, for the thread is not asleep
  have unkept (hf : w.holder g.mutex = none) : g ∉ (w.thread t).kept := by
    intro hk
    have hm := hself.holds g (List.mem_append_left _ hk) List.not_mem_nil
    rw [hf] at hm
    contradiction
  have takes (hf : w.holder g.mutex = none) {s : Stage V} {p' : Tenure}
      (hc : s.view.carried = [g]) (hw : s.works = none) (hp : s.tenure? = some (g, p'))
      (hstep : Tenure.Step (V := V) g.name .absent .took p') :
      w.Goes t (w.feats t ((w.take t g.mutex).setStage t s)) ((w.take t g.mutex).setStage t s) := by
    have ht : (w.take t g.mutex).holder g.mutex = some t := by rw [holder_take, if_pos rfl]
    have hgain : w.gains t g.mutex ((w.take t g.mutex).setStage t s) = true := gains_of_none hf ht
    simp only [feats, hs, hgain, if_true]
    refine h.stage (hb.take hf) rfl (hself.take rfl rfl hf ht (holder_take_of_holds w) hc hw) ?_
    have htenure : s.tenure (w.thread t).kept = update (keeping (w.thread t).kept) g p' := by
      rw [Stage.tenure, hp]
    rw [hs, htenure]
    exact .one hstep (keeping_of_notMem (unkept hf)) rfl
  cases hw with
  | occupied hf => exact stays ⟨rfl, rfl, rfl, rfl⟩
  | poisoned hf hp => exact takes hf rfl rfl rfl .spurned
  | acquired hf hp => exact takes hf rfl rfl rfl .took

theorem goes_recording {slot : Slot} (h : w.Stands xs)
    (hs : (w.thread t).stage = .recording g slot) (hw : w.Step t (.recording g slot) w') :
    w.Goes t (w.feats t w') w' := by
  have hself := h.grasp_at hs
  cases hw with
  | @recorded _ _ w₁ he =>
    obtain ⟨hb, hg, hh, _⟩ := uttered he
    obtain ⟨kept, hk, hpush⟩ : ∃ kept, ({ w.thread t with
        guards := (w.thread t).guards.set slot (w₁.guards t slot ++ [g]) } : Thread V).kept = kept ∧
          kept ~ g :: (w.thread t).kept := by
      refine ⟨_, rfl, ?_⟩
      rw [guards, hg]
      exact kept_push (h.rest t) slot g
    have hmem : g ∈ kept := hpush.mem_iff.mpr (List.mem_cons_self ..)
    have hgrasp : Grasp w₁.holder t kept (.finished .ok : Stage V) := by
      rw [hh]
      refine hself.swap rfl ?_ rfl
      change kept ++ [] ~ (w.thread t).kept ++ [g]
      rw [List.append_nil]
      exact hpush.trans (List.perm_append_singleton g _).symm
    simp only [feats, hs, he]
    refine h.slots hb hg slot _ hk hgrasp ?_
    rw [hs]
    refine .one .obtained (update_self ..) ?_
    change update (update (keeping _) g .gripping) g .owned = keeping kept
    rw [update_idem, ← update_keeping_cons hpush, update_keeping_owned hmem]
  | unrecorded he =>
    obtain ⟨hb, hg, hh, _⟩ := uttered he
    simp only [feats, hs, he]
    refine h.stage hb hg ((hh ▸ hself).same rfl rfl (by simp [Stage.works])) ?_
    rw [hs]
    exact .one (.unrecorded _) (update_self ..) (update_idem ..)

theorem goes_yielding {err : TraceError} (h : w.Stands xs)
    (hs : (w.thread t).stage = .yielding g err) (hw : w.Step t (.yielding g err) w') :
    w.Goes t (w.feats t w') w' := by
  have hself := h.grasp_at hs
  have hheld : w.holder g.mutex = some t := hself.holds g (by simp [Stage.view]) nofun
  cases hw with
  | yielded =>
    have hfree : (w.free g.mutex false).holder g.mutex = none := by rw [holder_free, if_pos rfl]
    have hloss : w.loses t g.mutex ((w.free g.mutex false).finish t (.failed err)) = true :=
      loses_of_none hheld hfree
    simp only [feats, hs, hloss, if_true]
    refine h.stage ((Beside.refl t w).free hheld false) rfl
      (hself.free rfl rfl (holder_free_of_ne w) rfl rfl) ?_
    rw [hs]
    exact .one .yielded (update_self ..) (update_update_absent (hself.notMem rfl) _)

theorem goes_leaving {how : Leave} (h : w.Stands xs) (hs : (w.thread t).stage = .leaving how g)
    (hw : w.Step t (.leaving how g) w') : w.Goes t (w.feats t w') w' := by
  have hself := h.grasp_at hs
  cases hw with
  | left he =>
    obtain ⟨hb, hg, hh, _⟩ := uttered he
    simp only [feats, hs, he]
    refine h.stage hb hg ((hh ▸ hself).same rfl rfl nofun) ?_
    rw [hs]
    exact .one (.released how _) (update_self ..) (update_idem ..)

theorem goes_freeing {how : Leave} {r : Except TraceError Unit} (h : w.Stands xs)
    (hs : (w.thread t).stage = .freeing how g r) (hw : w.Step t (.freeing how g r) w') :
    w.Goes t (w.feats t w') w' := by
  have hself := h.grasp_at hs
  have hheld : w.holder g.mutex = some t := hself.holds g (by simp [Stage.view]) nofun
  cases hw with
  | freed =>
    obtain ⟨a, said, he, hc⟩ := closing_eq (w.free g.mutex (how = .unwound)) t how g r
    have hfree : (w.free g.mutex (how = .unwound)).holder g.mutex = none := by
      rw [holder_free, if_pos rfl]
    have hloss : w.loses t g.mutex ((w.free g.mutex (how = .unwound)).closing t how g r) =
        true := by
      rw [hc]
      exact loses_of_none hheld hfree
    have hstage : (((w.free g.mutex (how = .unwound)).closing t how g r).thread t).stage =
        .finished a := by
      rw [hc, finish, thread_setStage_self]
    have hsaid : ((w.free g.mutex (how = .unwound)).closing t how g r).notices.drop
        w.notices.length = said := by
      rw [hc]
      exact List.drop_left
    simp only [feats, hs, hloss, if_true, hstage, hsaid]
    rw [hc]
    have hb := (Beside.refl t w).free hheld (how = .unwound)
    refine h.stage ⟨hb.others, hb.holders⟩ rfl (hself.free rfl rfl (holder_free_of_ne w) rfl rfl) ?_
    rw [hs]
    refine .cons (p := .parted how r) ?_ (.one (.ended he) (update_self ..) ?_)
    · change Tenure.Step _ (update (keeping _) g _ g) _ _
      rw [update_self]
      exact .freed how r
    · change update (update (update (keeping _) g _) g _) g _ = keeping _
      rw [update_idem, update_update_absent (hself.notMem rfl)]

theorem goes_accessing {change : V → V} (h : w.Stands xs)
    (hs : (w.thread t).stage = .accessing g change) (hw : w.Step t (.accessing g change) w') :
    w.Goes t (w.feats t w') w' := by
  have hself := h.grasp_at hs
  have hk : g ∈ (w.thread t).kept := hself.works g rfl
  cases hw with
  | accessed hv =>
    simp only [feats, hs]
    refine h.stage ((Beside.refl t w).setValue g.mutex _) rfl
      ((hself.frame fun m hm => ?_).same rfl rfl nofun) ?_
    · rw [holder_setMutex_value]
      exact hm
    · rw [hs]
      exact .one .used (keeping_of_mem hk) (update_keeping_owned hk)

theorem goes_judging {c : CondvarId} {condition : Condition V} {seen : List V} (h : w.Stands xs)
    (hs : (w.thread t).stage = .judging c g condition seen)
    (hw : w.Step t (.judging c g condition seen) w') : w.Goes t (w.feats t w') w' := by
  have hself := h.grasp_at hs
  have hk : g ∈ (w.thread t).kept := hself.works g rfl
  have hself' (v : V) : Grasp (w.setMutex g.mutex { w.mutex g.mutex with value := v }).holder t
      (w.thread t).kept (.judging c g condition seen) := by
    refine hself.frame fun m hm => ?_
    rw [holder_setMutex_value]
    exact hm
  cases hw with
  | again hv =>
    simp only [feats, hs]
    refine h.stage ((Beside.refl t w).setValue g.mutex _) rfl
      ((hself' _).same rfl rfl hself.works) ?_
    rw [hs]
    exact .one .used (keeping_of_mem hk) (update_keeping_owned hk)
  | enough hv =>
    simp only [feats, hs]
    refine h.stage ((Beside.refl t w).setValue g.mutex _) rfl ((hself' _).same rfl rfl nofun) ?_
    rw [hs]
    exact .one .used (keeping_of_mem hk) (update_keeping_owned hk)

theorem goes_waiting {c : CondvarId} {resume : Resume V} (h : w.Stands xs)
    (hs : (w.thread t).stage = .waiting c g resume) (hw : w.Step t (.waiting c g resume) w') :
    w.Goes t (w.feats t w') w' := by
  have hself := h.grasp_at hs
  have hk : g ∈ (w.thread t).kept := hself.works g rfl
  cases hw with
  | slept he =>
    obtain ⟨hb, hg, hh, _⟩ := uttered he
    simp only [feats, hs, he]
    refine h.stage hb hg ((hh ▸ hself).same rfl rfl hself.works) ?_
    rw [hs]
    exact .one .slept (keeping_of_mem hk) rfl
  | unslept he =>
    obtain ⟨hb, hg, hh, _⟩ := uttered he
    simp only [feats, hs, he]
    refine h.stage hb hg ((hh ▸ hself).same rfl rfl nofun) ?_
    rw [hs]
    exact .one (.unslept _) (keeping_of_mem hk) (update_keeping_owned hk)

theorem goes_parking {c : CondvarId} {resume : Resume V} (h : w.Stands xs)
    (hs : (w.thread t).stage = .parking c g resume) (hw : w.Step t (.parking c g resume) w') :
    w.Goes t (w.feats t w') w' := by
  have hself := h.grasp_at hs
  have hk : g ∈ (w.thread t).kept := hself.works g rfl
  have hheld : w.holder g.mutex = some t := hself.holds g (List.mem_append_left _ hk) nofun
  have hb := Beside.refl t w
  cases hw with
  | mixed hx =>
    have hloss : w.loses t g.mutex (w.finish t (.panicked .mixedMutexes)) = false := loses_of_eq rfl
    simp only [feats, hs, hloss, Bool.false_eq_true, if_false]
    refine h.stage hb rfl (hself.same rfl rfl nofun) ?_
    rw [hs]
    exact .one .broke (update_self ..) (update_update_owned hk _)
  | parked hx =>
    have hfree : (w.free g.mutex false).holder g.mutex = none := by rw [holder_free, if_pos rfl]
    have hloss : w.loses t g.mutex (((w.free g.mutex false).setWaiters c
        (w.waiters c ++ [⟨t, g.mutex⟩])).setStage t (.parked c g resume)) = true :=
      loses_of_none hheld hfree
    simp only [feats, hs, hloss, if_true]
    refine h.stage ((hb.free hheld false).setWaiters c _) rfl
      (hself.lend rfl rfl hk (holder_free_of_ne w) rfl rfl rfl) ?_
    rw [hs]
    exact .one .lent (update_self ..) (update_idem ..)

theorem goes_rejoining {c : CondvarId} {resume : Resume V} (h : w.Stands xs)
    (hs : (w.thread t).stage = .rejoining c g resume) (hw : w.Step t (.rejoining c g resume) w') :
    w.Goes t (w.feats t w') w' := by
  have hself := h.grasp_at hs
  cases hw with
  | rejoined hf =>
    have ht : (w.take t g.mutex).holder g.mutex = some t := by rw [holder_take, if_pos rfl]
    have hgain : w.gains t g.mutex ((w.take t g.mutex).setStage t (.waking c g resume)) = true :=
      gains_of_none hf ht
    simp only [feats, hs, hgain, if_true]
    refine h.stage ((Beside.refl t w).take hf) rfl
      (hself.regain rfl rfl ht (holder_take_of_holds w) rfl rfl) ?_
    rw [hs]
    exact .one .regained (update_self ..) (update_idem ..)

theorem goes_waking {c : CondvarId} {resume : Resume V} (h : w.Stands xs)
    (hs : (w.thread t).stage = .waking c g resume) (hw : w.Step t (.waking c g resume) w') :
    w.Goes t (w.feats t w') w' := by
  have hself := h.grasp_at hs
  have hk : g ∈ (w.thread t).kept := hself.works g rfl
  have hpath (r : Except TraceError Unit) :
      Path ((w.thread t).stage.tenure (w.thread t).kept) [(g, (.emitted .woken r : Feat V))]
        (keeping (w.thread t).kept) := by
    rw [hs]
    exact .one (.woke r) (update_self ..) (update_update_owned hk _)
  cases hw with
  | woke he | unwoken he =>
    obtain ⟨hb, hg, hh, _⟩ := uttered he
    simp only [feats, hs, he]
    exact h.stage hb hg ((hh ▸ hself).same rfl rfl nofun) (hpath _)
  | resumed he =>
    obtain ⟨hb, hg, hh, _⟩ := uttered he
    simp only [feats, hs, he]
    exact h.stage hb hg ((hh ▸ hself).same rfl rfl hself.works) (hpath _)

theorem goes_notifying {c : CondvarId} {all : Bool} (h : w.Stands xs)
    (hs : (w.thread t).stage = .notifying c all) (hw : w.Step t (.notifying c all) w') :
    w.Goes t (w.feats t w') w' := by
  have hbare : (w.thread t).stage.Bare := hs ▸ ⟨rfl, rfl, rfl, rfl⟩
  have rouses (ws ys : List Waiter) (a : Answer V) :
      w.Goes t [] (((w.setWaiters c ws).rouseAll ys).finish t a) := by
    refine h.quiet (((Beside.refl t w).setWaiters c ws).rouseAll ys) ?_ (fun m hm => ?_) hbare
      ⟨rfl, rfl, rfl, rfl⟩
    · exact guards_roused (thread_rouseAll (w.setWaiters c ws) ys t)
    · rw [holder, mutex_rouseAll]
      exact hm
  simp only [feats, hs]
  cases hw with
  | notifiedAll | notifiedOne => exact rouses _ _ _
  | notifiedNobody =>
    exact h.quiet (Beside.refl t w) rfl (fun m hm => hm) hbare ⟨rfl, rfl, rfl, rfl⟩

theorem goes_tagging (h : w.Stands xs) (hs : (w.thread t).stage = .tagging)
    (hw : w.Step t .tagging w') : w.Goes t (w.feats t w') w' := by
  have hbare : (w.thread t).stage.Bare := hs ▸ ⟨rfl, rfl, rfl, rfl⟩
  obtain ⟨n, _, hn⟩ := exists_thread_tagOf w t
  simp only [feats, hs]
  cases hw with
  | tagged =>
    refine h.quiet (Beside.refl t w).tagOf (by rw [hn]) (fun m hm => ?_) hbare ⟨rfl, rfl, rfl, rfl⟩
    rw [holder, mutex_tagOf]
    exact hm

/-- Every move of a thread inside a call leaves it with its guards where the feats do. -/
theorem goes_advance (h : w.Stands xs) (ha : w.advance t pick = some w') :
    w.Goes t (w.feats t w') w' := by
  have hw := step_of_advance ha
  cases hs : (w.thread t).stage with
  | idle | finished | parked =>
    rw [hs] at hw
    cases hw
  | emitting => exact goes_emitting h hs (hs ▸ hw)
  | attempting => exact goes_attempting h hs (hs ▸ hw)
  | acquiring => exact goes_acquiring h hs (hs ▸ hw)
  | recording => exact goes_recording h hs (hs ▸ hw)
  | yielding => exact goes_yielding h hs (hs ▸ hw)
  | refusing => exact goes_refusing h hs (hs ▸ hw)
  | leaving => exact goes_leaving h hs (hs ▸ hw)
  | freeing => exact goes_freeing h hs (hs ▸ hw)
  | accessing => exact goes_accessing h hs (hs ▸ hw)
  | judging => exact goes_judging h hs (hs ▸ hw)
  | waiting => exact goes_waiting h hs (hs ▸ hw)
  | parking => exact goes_parking h hs (hs ▸ hw)
  | rejoining => exact goes_rejoining h hs (hs ▸ hw)
  | waking => exact goes_waking h hs (hs ▸ hw)
  | notifying => exact goes_notifying h hs (hs ▸ hw)
  | tagging => exact goes_tagging h hs (hs ▸ hw)

end Advance

/-- A call begins that works with a guard in its slot, or with none. -/
theorem goes_borrowing (h : w.Stands xs) (hi : (w.thread t).stage = .idle)
    (hc : s.view.carried = []) (hl : s.view.lent = []) (ht : s.tenure? = none)
    (hw : ∀ g, s.works = some g → ∃ slot, w.guard? t slot = some g) :
    w.Goes t [] (w.setStage t s) := by
  have hself := h.grasp_at hi
  refine h.stage (Beside.refl t w) rfl (hself.same hc hl fun g hg => ?_) ?_
  · obtain ⟨slot, hslot⟩ := hw g hg
    exact mem_kept_of_head? (h.rest t) hslot
  · rw [hi, Stage.tenure, Stage.tenure, ht]
    exact .nil

/-- A call begins that ends a guard. -/
theorem goes_carrying {how : Leave} {slot : Slot} (h : w.Stands xs)
    (hi : (w.thread t).stage = .idle) (hg : w.guard? t slot = some g) :
    w.Goes t [(g, .left how)]
      ((w.setGuards t slot (w.guards t slot).tail).setStage t (.leaving how g)) := by
  have hself := h.grasp_at hi
  have hpop := (kept_pop (h.rest t) hg).symm
  refine h.slots (Beside.refl t w) rfl slot _ rfl (hself.swap rfl ?_ rfl) ?_
  · change _ ++ [g] ~ (w.thread t).kept ++ []
    rw [List.append_nil]
    exact (List.perm_append_singleton g _).trans hpop.symm
  · rw [hi]
    exact .one (.left how) (keeping_of_mem (mem_kept_of_head? (h.rest t) hg))
      (update_keeping_cons hpop _)

theorem goes_begin {call : Call V} (h : w.Stands xs) (hb : w.begin t call = some w') :
    w.Goes t (w.letsGo t call) w' := by
  unfold begin at hb
  split at hb
  · rename_i hi
    cases call with
    | emit e k label | lock p e m label slot =>
      simp only [opening] at hb
      cases hl : LockName.ofString? label
      all_goals
        rw [hl] at hb
        cases hb
        exact goes_borrowing h hi rfl rfl rfl (by simp [Stage.works])
    | leave how slot =>
      cases hg : w.guard? t slot with
      | none => simp [opening, hg] at hb
      | some g =>
        simp only [opening, hg] at hb
        cases hb
        simp only [letsGo, hg]
        exact goes_carrying h hi hg
    | access slot change =>
      cases hg : w.guard? t slot with
      | none => simp [opening, hg] at hb
      | some g =>
        simp only [opening, hg] at hb
        cases hb
        exact goes_borrowing h hi rfl rfl rfl fun _ hw => ⟨slot, hg.trans hw⟩
    | wait c slot | waitWhile c slot condition =>
      cases hg : w.guard? t slot with
      | none => simp [opening, hg] at hb
      | some g =>
        simp only [opening, hg, Option.bind_some] at hb
        split at hb
        · contradiction
        · cases hb
          exact goes_borrowing h hi rfl rfl rfl fun _ hw => ⟨slot, hg.trans hw⟩
    | notifyOne c | notifyAll c | tag =>
      cases hb
      exact goes_borrowing h hi rfl rfl rfl (by simp [Stage.works])
  · contradiction

theorem holder_rouse (hr : w.rouse t = some w') : w'.holder = w.holder := by
  unfold World.rouse at hr
  split at hr
  · cases hr
    funext m
    rw [holder, mutex_rouseAll]
    rfl
  · contradiction

theorem Stands.rouse (h : w.Stands xs) (hr : w.rouse t = some w') : w'.Stands xs where
  rest t' := by
    rw [guards_roused (roused_of_rouse hr t')]
    exact h.rest t'
  grasp t' := by
    refine (grasp_roused (roused_of_rouse hr t') (h.grasp t')).frame fun m hm => ?_
    rw [holder_rouse hr]
    exact hm
  life t' g := by
    rw [tenure_roused (roused_of_rouse hr t')]
    exact h.life t' g

theorem Stands.collect {a : Answer V} (h : w.Stands xs) (hc : w.collect t = some (a, w')) :
    w'.Stands xs := by
  unfold World.collect at hc
  split at hc
  · rename_i hs
    cases hc
    have hbare : (w.thread t).stage.Bare := hs ▸ ⟨rfl, rfl, rfl, rfl⟩
    have hgo := h.go (h.quiet (Beside.refl t w) rfl (fun m hm => hm) hbare
      (⟨rfl, rfl, rfl, rfl⟩ : (Stage.idle : Stage V).Bare))
    rwa [List.map_nil, List.append_nil] at hgo
  · contradiction

/-- At every moment the threads stand with guards where what has happened has left them. -/
theorem Annals.stands [Recorder R] {drift : R → R → Prop} {w₀ : World V R} (h₀ : w₀.Fresh)
    (h : Annals drift w₀ xs w) : w.Stands xs := by
  induction h with
  | start =>
    constructor
    all_goals
      intro t
      rw [h₀.threads t]
    · exact ⟨by simp [Thread.kept, Stage.view], .nil, nofun⟩
    · exact fun g => .start
  | begin t call _ hb ih => exact ih.go (goes_begin ih hb)
  | advance t pick _ ha ih => exact ih.go (goes_advance ih ha)
  | rouse t _ hr ih => exact ih.rouse hr
  | collect t a _ hc ih => exact ih.collect hc
  | drift r _ _ ih => exact ⟨ih.rest, ih.grasp, ih.life⟩

/-- What a happening does to guards, and the world afterwards. Who slept first is woken first. -/
def recount? [Recorder R] (w : World V R) (t : ThreadId) :
    Happening V → Option (List (Guard × Feat V) × World V R)
  | .begin call => (w.begin t call).map (w.letsGo t call, ·)
  | .advance => (w.advance t List.head?).map fun w' => (w.feats t w', w')
  | .rouse => (w.rouse t).map ([], ·)
  | .collect => (w.collect t).map fun r => ([], r.2)

/-- Computes annals. -/
def chronicle? [Recorder R] (xs : List (ThreadId × Guard × Feat V)) (w : World V R) :
    List (ThreadId × Happening V) → Option (List (ThreadId × Guard × Feat V) × World V R)
  | [] => some (xs, w)
  | (t, x) :: rest =>
    (w.recount? t x).bind fun r => chronicle? (xs ++ r.1.map (t, ·)) r.2 rest

/-- What is computed are annals. -/
theorem Annals.chronicle [Recorder R] {drift : R → R → Prop} {w₀ w w' : World V R}
    {xs xs' : List (ThreadId × Guard × Feat V)} {ys : List (ThreadId × Happening V)}
    (h : Annals drift w₀ xs w) (hy : w.chronicle? xs ys = some (xs', w')) :
    Annals drift w₀ xs' w' := by
  induction ys generalizing xs w with
  | nil =>
    cases hy
    exact h
  | cons y ys ih =>
    obtain ⟨t, x⟩ := y
    obtain ⟨⟨fs, w₁⟩, hr, hy⟩ := Option.bind_eq_some_iff.mp hy
    refine ih ?_ hy
    cases x with
    | begin call =>
      obtain ⟨_, hb, he⟩ := Option.map_eq_some_iff.mp hr
      cases he
      exact h.begin t call hb
    | advance =>
      obtain ⟨_, ha, he⟩ := Option.map_eq_some_iff.mp hr
      cases he
      exact h.advance t _ ha
    | rouse =>
      obtain ⟨_, hr', he⟩ := Option.map_eq_some_iff.mp hr
      cases he
      rw [List.map_nil, List.append_nil]
      exact h.rouse t hr'
    | collect =>
      obtain ⟨⟨a, _⟩, hc, he⟩ := Option.map_eq_some_iff.mp hr
      cases he
      rw [List.map_nil, List.append_nil]
      exact h.collect t a hc

end World

end LockTrace
