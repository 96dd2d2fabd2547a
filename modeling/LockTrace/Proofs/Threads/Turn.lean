import LockTrace.Proofs.Threads.Custody
import LockTrace.Proofs.Threads.Moves

namespace LockTrace

open scoped List
open Book (Turn)

variable {V R : Type}

/-- The record that a stage is about to make. -/
def Stage.utters : Stage V → Option (Kind × Guard)
  | .attempting _ g _ => some (.attempt, g)
  | .recording g _ => some (.acquired, g)
  | .refusing g => some (.tryFailed, g)
  | .leaving _ g => some (.released, g)
  | .waiting _ g _ => some (.wait, g)
  | .waking _ g _ => some (.woken, g)
  | _ => none

/-- The answer that a thread has got and not handed over. -/
def Stage.answered? : Stage V → Option (Answer V)
  | .finished a => some a
  | _ => none

theorem Stage.answered?_eq_some {s : Stage V} {a : Answer V} :
    s.answered? = some a ↔ s = .finished a := by
  cases s <;> simp [Stage.answered?]

/-- Calls of traced locks and condition variables that all go through one emitter, where a name is
always that of the same mutex. -/
def Call.Traced (e : EmitterId) (home : LockName → MutexId) : Call V → Prop
  | .emit .. => False
  | .lock _ e' m label _ => e' = e ∧ ∀ name, LockName.ofString? label = some name → home name = m
  | _ => True

namespace World

/-- Whether the record of a guard that a thread is about to make will be taken. -/
def taken [Recorder R] (w : World V R) (t : ThreadId) (k : Kind) (g : Guard) : Bool :=
  (w.emit t g.emitter k g.name).1.isOk

/-- The deed that a thread does by one move from one world to another. -/
def deed? [Recorder R] (w : World V R) (t : ThreadId) (w' : World V R) : Option Deed :=
  match (w.thread t).stage.utters with
  | some (.attempt, g) =>
    some (.attempt t g.name (((w.thread t).kept.map (·.name)).contains g.name)
      (w.taken t .attempt g))
  | some (k, g) => some (.record t k g.name (w.taken t k g))
  | none =>
    match (w.thread t).stage, (w'.thread t).stage with
    | .acquiring _ g _, .yielding _ _ => some (.balked t g.name)
    | .parking _ g _, .finished _ => some (.broke t g.name)
    | _, _ => none

/-- A book that is right about every thread of a world in which all calls are traced. -/
structure Agrees (e : EmitterId) (home : LockName → MutexId) (w : World V R) (b : Book) :
    Prop where
  fits : ∀ t, Fits e home w.holder t (w.thread t).stage.view (w.thread t).kept (b t)
  rest : ∀ t, (w.thread t).guards.rest = []
  traced : ∀ t e k name, (w.thread t).stage ≠ .emitting e k name

/-- What a move of a thread leaves to the others: at most it wakes them. -/
structure Beside (t : ThreadId) (w w' : World V R) : Prop where
  others : ∀ t', t' ≠ t → Roused (w.thread t') (w'.thread t')
  holders : ∀ t', t' ≠ t → ∀ m, w.holder m = some t' → w'.holder m = some t'

variable {e : EmitterId} {home : LockName → MutexId} {w w' : World V R} {b : Book}
  {t : ThreadId} {p : Page}

theorem view_roused {th th' : Thread V} (h : Roused th th') : th'.stage.view = th.stage.view := by
  rcases h with rfl | ⟨c, g, resume, hs, rfl⟩
  · rfl
  · rw [hs]
    rfl

theorem guards_roused {th th' : Thread V} (h : Roused th th') : th'.guards = th.guards := by
  rcases h with rfl | ⟨c, g, resume, _, rfl⟩ <;> rfl

theorem stage_roused {th th' : Thread V} (h : Roused th th') {e : EmitterId} {k : Kind}
    {name : LockName} (hs : th.stage ≠ .emitting e k name) : th'.stage ≠ .emitting e k name := by
  rcases h with rfl | ⟨c, g, resume, _, rfl⟩
  · exact hs
  · exact nofun

/-- What others do to a thread changes nothing in its page. -/
theorem Agrees.turn (h : Agrees e home w b) (hb : Beside t w w')
    (self : Fits e home w'.holder t (w'.thread t).stage.view (w'.thread t).kept p)
    (rest : (w'.thread t).guards.rest = [])
    (traced : ∀ e k name, (w'.thread t).stage ≠ .emitting e k name) :
    Agrees e home w' (b.turn t p) where
  fits t' := by
    by_cases ht : t' = t
    · subst ht
      rw [Book.turn_self]
      exact self
    · have hr := hb.others t' ht
      rw [Book.turn_ne b ht, view_roused hr, Thread.kept, guards_roused hr]
      exact (h.fits t').frame (hb.holders t' ht)
  rest t' := by
    by_cases ht : t' = t
    · rw [ht]
      exact rest
    · rw [guards_roused (hb.others t' ht)]
      exact h.rest t'
  traced t' e k name := by
    by_cases ht : t' = t
    · rw [ht]
      exact traced e k name
    · exact stage_roused (hb.others t' ht) (h.traced t' e k name)

namespace Beside

variable {w₁ : World V R}

theorem refl (t : ThreadId) (w : World V R) : Beside t w w :=
  ⟨fun _ _ => .inl rfl, fun _ _ _ h => h⟩

theorem setStage (h : Beside t w w₁) (s : Stage V) : Beside t w (w₁.setStage t s) where
  others t' ht := by
    rw [thread_setStage_ne w₁ (Ne.symm ht)]
    exact h.others t' ht
  holders := h.holders

theorem setGuards (h : Beside t w w₁) (slot : Slot) (gs : List Guard) :
    Beside t w (w₁.setGuards t slot gs) where
  others t' ht := by
    rw [thread_setGuards_ne w₁ (Ne.symm ht)]
    exact h.others t' ht
  holders := h.holders

theorem tagOf (h : Beside t w w₁) : Beside t w (w₁.tagOf t).2 where
  others t' ht := by
    rw [thread_tagOf_ne w₁ (Ne.symm ht)]
    exact h.others t' ht
  holders t' ht m hm := by
    rw [holder, mutex_tagOf]
    exact h.holders t' ht m hm

theorem emit [Recorder R] (h : Beside t w w₁) (e : EmitterId) (k : Kind) (name : LockName) :
    Beside t w (w₁.emit t e k name).2 := ⟨h.tagOf.others, h.tagOf.holders⟩

theorem take (h : Beside t w w₁) {m : MutexId} (hf : w₁.holder m = none) :
    Beside t w (w₁.take t m) where
  others := h.others
  holders t' ht m' hm' := by
    have hm := h.holders t' ht m' hm'
    rw [holder_take, if_neg]
    · exact hm
    · rintro rfl
      rw [hf] at hm
      contradiction

theorem free (h : Beside t w w₁) {m : MutexId} (hf : w₁.holder m = some t) (unwinding : Bool) :
    Beside t w (w₁.free m unwinding) where
  others := h.others
  holders t' ht m' hm' := by
    have hm := h.holders t' ht m' hm'
    rw [holder_free, if_neg]
    · exact hm
    · rintro rfl
      rw [hf] at hm
      exact ht (Option.some_inj.mp hm).symm

theorem setValue (h : Beside t w w₁) (m : MutexId) (v : V) :
    Beside t w (w₁.setMutex m { w₁.mutex m with value := v }) where
  others := h.others
  holders t' ht m' hm' := by
    rw [holder_setMutex_value]
    exact h.holders t' ht m' hm'

theorem note (h : Beside t w w₁) (n : Notice) : Beside t w (w₁.note n) := ⟨h.others, h.holders⟩

theorem setWaiters (h : Beside t w w₁) (c : CondvarId) (ws : List Waiter) :
    Beside t w (w₁.setWaiters c ws) := ⟨h.others, h.holders⟩

theorem rouseAll (h : Beside t w w₁) (xs : List Waiter) : Beside t w (w₁.rouseAll xs) where
  others t' ht := (h.others t' ht).trans (thread_rouseAll w₁ xs t')
  holders t' ht m hm := by
    rw [holder, mutex_rouseAll]
    exact h.holders t' ht m hm

end Beside

/-- A move that ends in a new stage and leaves the slots as they are. -/
theorem Agrees.stage (h : Agrees e home w b) {w₁ : World V R} (hb : Beside t w w₁)
    (hg : (w₁.thread t).guards = (w.thread t).guards) {s : Stage V}
    (self : Fits e home w₁.holder t s.view (w.thread t).kept p)
    (traced : ∀ e k name, s ≠ .emitting e k name) :
    Agrees e home (w₁.setStage t s) (b.turn t p) := by
  apply h.turn (hb.setStage s)
  · rw [thread_setStage_self]
    change Fits e home w₁.holder t s.view (w₁.thread t).kept p
    rw [Thread.kept, hg]
    exact self
  · rw [thread_setStage_self, hg]
    exact h.rest t
  · rw [thread_setStage_self]
    exact traced

/-- A move that fills a slot anew and ends in a new stage. -/
theorem Agrees.slots (h : Agrees e home w b) {w₁ : World V R} (hb : Beside t w w₁)
    (hg : (w₁.thread t).guards = (w.thread t).guards) {s : Stage V} (slot : Slot)
    (gs : List Guard)
    (self : Fits e home w₁.holder t s.view
      ({ w.thread t with guards := (w.thread t).guards.set slot gs } : Thread V).kept p)
    (traced : ∀ e k name, s ≠ .emitting e k name) :
    Agrees e home ((w₁.setGuards t slot gs).setStage t s) (b.turn t p) := by
  apply h.turn ((hb.setGuards slot gs).setStage s)
  · rw [thread_setStage_self, thread_setGuards_self, hg]
    exact self
  · rw [thread_setStage_self, thread_setGuards_self, hg]
    exact h.rest t
  · rw [thread_setStage_self]
    exact traced

/-- What a book says of a thread at a stage. -/
theorem Agrees.at_stage (h : Agrees e home w b) {s : Stage V} (hs : (w.thread t).stage = s) :
    Fits e home w.holder t s.view (w.thread t).kept (b t) := hs ▸ h.fits t

/-- A guard that hides its mutex from the stream is the only one of its name. -/
theorem Agrees.fresh (h : Agrees e home w b) {g : Guard}
    (hg : g ∈ (w.thread t).stage.view.veiled) : b.Fresh g.name := by
  intro t' hn
  obtain ⟨g', hg', he⟩ := List.mem_map.mp hn
  exact (h.fits t).name_ne hg (h.fits t') (fun ht => by rw [ht]) hg' he

section Advance

variable [Recorder R] {pick : List Waiter → Option Waiter} {k : Kind} {g : Guard}

/-- The turn that a thread takes by going from one world to another. -/
def Turns (e : EmitterId) (home : LockName → MutexId) (w : World V R) (b : Book) (t : ThreadId)
    (w' : World V R) : Prop :=
  ∃ p, Turn b t (w.deed? t w') p ∧ Agrees e home w' (b.turn t p)

/-- Making a record changes the recorder, and of the thread at most its tag. -/
theorem uttered {r : Except TraceError Unit} {w₁ : World V R}
    (he : w.emit t g.emitter k g.name = (r, w₁)) :
    Beside t w w₁ ∧ (w₁.thread t).guards = (w.thread t).guards ∧ w₁.holder = w.holder ∧
      w.taken t k g = r.isOk := by
  obtain rfl : (w.emit t g.emitter k g.name).2 = w₁ := by rw [he]
  refine ⟨(Beside.refl t w).emit .., ?_, ?_, ?_⟩
  · obtain ⟨n, _, hn⟩ := exists_thread_tagOf w t
    rw [thread_emit_self, hn]
  · funext m
    rw [holder, mutex_emit]
    rfl
  · rw [taken, he]

theorem deed?_of_utters {k : Kind} (hu : (w.thread t).stage.utters = some (k, g))
    (hk : k ≠ .attempt) : w.deed? t w' = some (.record t k g.name (w.taken t k g)) := by
  rw [deed?, hu]
  split
  · rename_i heq
    cases heq
    contradiction
  · rename_i heq
    cases heq
    rfl
  · contradiction

/-- A turn without a deed leaves the page as it is. -/
theorem turns_quiet (hd : w.deed? t w' = none) (h : Agrees e home w' (b.turn t (b t))) :
    Turns e home w b t w' := by
  refine ⟨b t, ?_, h⟩
  rw [hd]
  exact .quiet

theorem turns_attempting {patience : Patience} {slot : Slot} (h : Agrees e home w b)
    (hs : (w.thread t).stage = .attempting patience g slot)
    (hw : w.Step t (.attempting patience g slot) w') : Turns e home w b t w' := by
  have hfit : Fits e home w.holder t { wanted := [g] } (w.thread t).kept (b t) := h.at_stage hs
  have hnames : ((w.thread t).kept.map (·.name)).contains g.name =
      (b t).names.contains g.name := by
    have ho := hfit.own
    rw [List.append_nil] at ho
    exact (ho.map (·.name)).contains_eq
  have hd : w.deed? t w' = some (.attempt t g.name ((b t).names.contains g.name)
      (w.taken t .attempt g)) := by
    rw [deed?, hs, ← hnames]
    rfl
  rw [Turns, hd]
  cases hw with
  | attempted he =>
    obtain ⟨hb, hg, hh, ht⟩ := uttered he
    rw [ht]
    exact ⟨_, .attempt g.name true ⟨hfit.asked, hfit.away⟩,
      h.stage hb hg (hh ▸ hfit.ask) nofun⟩
  | unattempted he =>
    obtain ⟨hb, hg, hh, ht⟩ := uttered he
    rw [ht]
    exact ⟨_, .attempt g.name false ⟨hfit.asked, hfit.away⟩,
      h.stage hb hg (hh ▸ hfit.clear rfl rfl rfl rfl rfl hfit.away) nofun⟩

theorem turns_acquiring {patience : Patience} {slot : Slot} (h : Agrees e home w b)
    (hs : (w.thread t).stage = .acquiring patience g slot)
    (hw : w.Step t (.acquiring patience g slot) w') : Turns e home w b t w' := by
  have hfit : Fits e home w.holder t { asked := some g.name, wanted := [g] } (w.thread t).kept
      (b t) := h.at_stage hs
  have hb := Beside.refl t w
  have htake (hf : w.holder g.mutex = none) : Fits e home (w.take t g.mutex).holder t
      { asked := some g.name, carried := [g], veiled := [g] } (w.thread t).kept (b t) := by
    refine hfit.take hf ?_ fun m hm => ?_
    · rw [holder_take, if_pos rfl]
    · rw [holder_take]
      split
      · rfl
      · exact hm
  cases hw with
  | occupied hf =>
    have hd : w.deed? t (w.setStage t (.refusing g)) = none := by
      simp [deed?, hs, Stage.utters]
    exact turns_quiet hd (h.stage hb rfl hfit nofun)
  | poisoned hf hp =>
    have hd : w.deed? t ((w.take t g.mutex).setStage t (.yielding g (.poisoned g.name))) =
        some (.balked t g.name) := by
      simp [deed?, hs, Stage.utters]
    rw [Turns, hd]
    -- the stream is not told that the thread has the mutex, and will not be
    exact ⟨_, .balked g.name hfit.asked hfit.away,
      h.stage (hb.take hf) rfl (htake hf).conceal nofun⟩
  | acquired hf hp =>
    have hd : w.deed? t ((w.take t g.mutex).setStage t (.recording g slot)) = none := by
      simp [deed?, hs, Stage.utters]
    exact turns_quiet hd (h.stage (hb.take hf) rfl (htake hf) nofun)

theorem turns_recording {slot : Slot} (h : Agrees e home w b)
    (hs : (w.thread t).stage = .recording g slot)
    (hw : w.Step t (.recording g slot) w') : Turns e home w b t w' := by
  have hfit : Fits e home w.holder t { asked := some g.name, carried := [g], veiled := [g] }
      (w.thread t).kept (b t) := h.at_stage hs
  have hfresh : b.Fresh g.name := h.fresh (by rw [hs]; exact List.mem_singleton_self g)
  rw [Turns, deed?_of_utters (k := .acquired) (by rw [hs]; rfl) (by decide)]
  cases hw with
  | @recorded _ _ w₁ he =>
    obtain ⟨hb, hg, hh, ht⟩ := uttered he
    rw [ht]
    refine ⟨_, .acquired g true hfit.asked hfit.away hfresh, h.slots hb hg slot _ ?_ nofun⟩
    have hslot : w₁.guards t slot = (w.thread t).guards.get slot := by rw [guards, hg]
    rw [hslot]
    exact hh ▸ hfit.keep (kept_push (h.rest t) slot g)
  | unrecorded he =>
    obtain ⟨hb, hg, hh, ht⟩ := uttered he
    rw [ht]
    exact ⟨_, .acquired g false hfit.asked hfit.away hfresh,
      h.stage hb hg (hh ▸ hfit.conceal) nofun⟩

theorem turns_yielding {err : TraceError} (h : Agrees e home w b)
    (hs : (w.thread t).stage = .yielding g err)
    (hw : w.Step t (.yielding g err) w') : Turns e home w b t w' := by
  have hfit : Fits e home w.holder t { carried := [g], veiled := [g] } (w.thread t).kept (b t) :=
    h.at_stage hs
  have hd : w.deed? t w' = none := by simp [deed?, hs, Stage.utters]
  have hheld : w.holder g.mutex = some t := hfit.holds g (List.mem_cons_self ..)
  cases hw with
  | yielded =>
    refine turns_quiet hd (h.stage ((Beside.refl t w).free hheld false) rfl
      (hfit.free fun m hm ht => ?_) nofun)
    rw [holder_free, if_neg (Ne.symm hm)]
    exact ht

theorem turns_refusing (h : Agrees e home w b) (hs : (w.thread t).stage = .refusing g)
    (hw : w.Step t (.refusing g) w') : Turns e home w b t w' := by
  have hfit : Fits e home w.holder t { asked := some g.name, wanted := [g] } (w.thread t).kept
      (b t) := h.at_stage hs
  have hfit' : Fits e home w.holder t {} (w.thread t).kept { b t with asked := none } :=
    hfit.clear rfl rfl rfl rfl rfl hfit.away
  rw [Turns, deed?_of_utters (k := .tryFailed) (by rw [hs]; rfl) (by decide)]
  cases hw with
  | refused he | unrefused he =>
    obtain ⟨hb, hg, hh, ht⟩ := uttered he
    rw [ht]
    exact ⟨_, .denied g.name _ hfit.asked hfit.away, h.stage hb hg (hh ▸ hfit') nofun⟩

theorem turns_leaving {how : Leave} (h : Agrees e home w b)
    (hs : (w.thread t).stage = .leaving how g)
    (hw : w.Step t (.leaving how g) w') : Turns e home w b t w' := by
  have hfit : Fits e home w.holder t { carried := [g] } (w.thread t).kept (b t) := h.at_stage hs
  rw [Turns, deed?_of_utters (k := .released) (by rw [hs]; rfl) (by decide)]
  cases hw with
  | left he =>
    obtain ⟨hb, hg, hh, ht⟩ := uttered he
    rw [ht]
    exact ⟨_, .released g _ ⟨hfit.asked, hfit.away⟩ hfit.mem_of_carried,
      h.stage hb hg (hh ▸ hfit.leave) nofun⟩

theorem turns_freeing {how : Leave} {result : Except TraceError Unit} (h : Agrees e home w b)
    (hs : (w.thread t).stage = .freeing how g result)
    (hw : w.Step t (.freeing how g result) w') : Turns e home w b t w' := by
  have hfit : Fits e home w.holder t { carried := [g], veiled := [g] } (w.thread t).kept (b t) :=
    h.at_stage hs
  have hd : w.deed? t w' = none := by simp [deed?, hs, Stage.utters]
  have hheld : w.holder g.mutex = some t := hfit.holds g (List.mem_cons_self ..)
  have hb := (Beside.refl t w).free hheld (how = .unwound)
  have hfree : Fits e home (w.free g.mutex (how = .unwound)).holder t {} (w.thread t).kept
      (b t) := by
    refine hfit.free fun m hm ht => ?_
    rw [holder_free, if_neg (Ne.symm hm)]
    exact ht
  cases hw with
  | freed =>
    apply turns_quiet hd
    cases how <;> cases result
    all_goals first
      | exact h.stage hb rfl hfree nofun
      | exact h.stage (hb.note _) rfl hfree nofun

theorem turns_accessing {change : V → V} (h : Agrees e home w b)
    (hs : (w.thread t).stage = .accessing g change)
    (hw : w.Step t (.accessing g change) w') : Turns e home w b t w' := by
  have hfit : Fits e home w.holder t {} (w.thread t).kept (b t) := h.at_stage hs
  have hd : w.deed? t w' = none := by simp [deed?, hs, Stage.utters]
  cases hw with
  | accessed hv =>
    refine turns_quiet hd (h.stage ((Beside.refl t w).setValue g.mutex _) rfl
      (hfit.frame fun m hm => ?_) nofun)
    rw [holder_setMutex_value]
    exact hm

theorem turns_judging {c : CondvarId} {condition : Condition V} {seen : List V}
    (h : Agrees e home w b) (hs : (w.thread t).stage = .judging c g condition seen)
    (hw : w.Step t (.judging c g condition seen) w') : Turns e home w b t w' := by
  have hfit : Fits e home w.holder t { borrowed := [g] } (w.thread t).kept (b t) := h.at_stage hs
  have hd : w.deed? t w' = none := by simp [deed?, hs, Stage.utters]
  have hb (v : V) := (Beside.refl t w).setValue g.mutex v
  have hfit' (v : V) : Fits e home
      (w.setMutex g.mutex { w.mutex g.mutex with value := v }).holder t { borrowed := [g] }
      (w.thread t).kept (b t) := by
    refine hfit.frame fun m hm => ?_
    rw [holder_setMutex_value]
    exact hm
  cases hw with
  | again hv => exact turns_quiet hd (h.stage (hb _) rfl (hfit' _) nofun)
  | enough hv =>
    exact turns_quiet hd
      (h.stage (hb _) rfl ((hfit' _).clear rfl rfl rfl rfl hfit.asked hfit.away) nofun)

theorem turns_waiting {c : CondvarId} {resume : Resume V} (h : Agrees e home w b)
    (hs : (w.thread t).stage = .waiting c g resume)
    (hw : w.Step t (.waiting c g resume) w') : Turns e home w b t w' := by
  have hfit : Fits e home w.holder t { borrowed := [g] } (w.thread t).kept (b t) := h.at_stage hs
  rw [Turns, deed?_of_utters (k := .wait) (by rw [hs]; rfl) (by decide)]
  cases hw with
  | slept he =>
    obtain ⟨hb, hg, hh, ht⟩ := uttered he
    rw [ht]
    exact ⟨_, .slept g true ⟨hfit.asked, hfit.away⟩ hfit.mem_of_borrowed,
      h.stage hb hg (hh ▸ hfit.sleep) nofun⟩
  | unslept he =>
    obtain ⟨hb, hg, hh, ht⟩ := uttered he
    rw [ht]
    exact ⟨_, .slept g false ⟨hfit.asked, hfit.away⟩ hfit.mem_of_borrowed,
      h.stage hb hg (hh ▸ hfit.clear rfl rfl rfl rfl hfit.asked hfit.away) nofun⟩

theorem turns_parking {c : CondvarId} {resume : Resume V} (h : Agrees e home w b)
    (hs : (w.thread t).stage = .parking c g resume)
    (hw : w.Step t (.parking c g resume) w') : Turns e home w b t w' := by
  have hfit : Fits e home w.holder t { away := some g, veiled := [g] } (w.thread t).kept (b t) :=
    h.at_stage hs
  have hb := Beside.refl t w
  have hheld : w.holder g.mutex = some t := hfit.holds g (List.mem_cons_self ..)
  have hfresh : b.Fresh g.name := h.fresh (by rw [hs]; exact List.mem_singleton_self g)
  cases hw with
  | mixed hx =>
    have hd : w.deed? t (w.finish t (.panicked .mixedMutexes)) = some (.broke t g.name) := by
      simp [deed?, hs, Stage.utters, finish]
    rw [Turns, hd]
    exact ⟨_, .broke g hfit.asked hfit.away hfresh, h.stage hb rfl hfit.strand nofun⟩
  | parked hx =>
    have hd : w.deed? t (((w.free g.mutex false).setWaiters c
        (w.waiters c ++ [⟨t, g.mutex⟩])).setStage t (.parked c g resume)) = none := by
      simp [deed?, hs, Stage.utters]
    refine turns_quiet hd (h.stage ((hb.free hheld false).setWaiters c _) rfl
      (hfit.lend fun m hm ht => ?_) nofun)
    change (w.free g.mutex false).holder m = some t
    rw [holder_free, if_neg (Ne.symm hm)]
    exact ht

theorem turns_rejoining {c : CondvarId} {resume : Resume V} (h : Agrees e home w b)
    (hs : (w.thread t).stage = .rejoining c g resume)
    (hw : w.Step t (.rejoining c g resume) w') : Turns e home w b t w' := by
  have hfit : Fits e home w.holder t { away := some g, lent := [g] } (w.thread t).kept (b t) :=
    h.at_stage hs
  have hd : w.deed? t w' = none := by simp [deed?, hs, Stage.utters]
  cases hw with
  | rejoined hf =>
    refine turns_quiet hd (h.stage ((Beside.refl t w).take hf) rfl
      (hfit.regain hf ?_ fun m hm => ?_) nofun)
    · rw [holder_take, if_pos rfl]
    · rw [holder_take]
      split
      · rfl
      · exact hm

theorem turns_waking {c : CondvarId} {resume : Resume V} (h : Agrees e home w b)
    (hs : (w.thread t).stage = .waking c g resume)
    (hw : w.Step t (.waking c g resume) w') : Turns e home w b t w' := by
  have hfit : Fits e home w.holder t { away := some g, veiled := [g] } (w.thread t).kept (b t) :=
    h.at_stage hs
  have hfresh : b.Fresh g.name := h.fresh (by rw [hs]; exact List.mem_singleton_self g)
  rw [Turns, deed?_of_utters (k := .woken) (by rw [hs]; rfl) (by decide)]
  cases hw with
  | woke he | unwoken he =>
    obtain ⟨hb, hg, hh, ht⟩ := uttered he
    rw [ht]
    exact ⟨_, .woke g _ hfit.asked hfit.away hfresh, h.stage hb hg (hh ▸ hfit.wake) nofun⟩
  | resumed he =>
    obtain ⟨hb, hg, hh, ht⟩ := uttered he
    rw [ht]
    exact ⟨_, .woke g _ hfit.asked hfit.away hfresh,
      h.stage hb hg (hh ▸ hfit.wake.borrow hfit.mem_kept_of_veiled) nofun⟩

theorem turns_notifying {c : CondvarId} {all : Bool} (h : Agrees e home w b)
    (hs : (w.thread t).stage = .notifying c all)
    (hw : w.Step t (.notifying c all) w') : Turns e home w b t w' := by
  have hfit : Fits e home w.holder t {} (w.thread t).kept (b t) := h.at_stage hs
  have hd : w.deed? t w' = none := by simp [deed?, hs, Stage.utters]
  have finished (a : Answer V) (e : EmitterId) (k : Kind) (name : LockName) :
      Stage.finished a ≠ .emitting e k name := by
    intro hs
    contradiction
  have rouses (ws xs : List Waiter) (a : Answer V) :
      Agrees e home (((w.setWaiters c ws).rouseAll xs).finish t a) (b.turn t (b t)) := by
    refine h.stage (((Beside.refl t w).setWaiters c ws).rouseAll xs) ?_
      (hfit.frame fun m hm => ?_) (finished a)
    · exact guards_roused (thread_rouseAll (w.setWaiters c ws) xs t)
    · rw [holder, mutex_rouseAll]
      exact hm
  cases hw with
  | notifiedAll => exact turns_quiet hd (rouses _ _ _)
  | notifiedNobody hn => exact turns_quiet hd (h.stage (Beside.refl t w) rfl hfit (finished _))
  | notifiedOne hx => exact turns_quiet hd (rouses _ _ _)

theorem turns_tagging (h : Agrees e home w b) (hs : (w.thread t).stage = .tagging)
    (hw : w.Step t .tagging w') : Turns e home w b t w' := by
  have hfit : Fits e home w.holder t {} (w.thread t).kept (b t) := h.at_stage hs
  have hd : w.deed? t w' = none := by simp [deed?, hs, Stage.utters]
  obtain ⟨n, _, hn⟩ := exists_thread_tagOf w t
  cases hw with
  | tagged =>
    refine turns_quiet hd (h.stage (Beside.refl t w).tagOf (by rw [hn])
      (hfit.frame fun m hm => ?_) nofun)
    rw [holder, mutex_tagOf]
    exact hm

/-- Every move of a thread inside a call is a turn of its page. -/
theorem turns_advance (h : Agrees e home w b) (ha : w.advance t pick = some w') :
    Turns e home w b t w' := by
  have hw := step_of_advance ha
  cases hs : (w.thread t).stage with
  | idle | finished | parked =>
    rw [hs] at hw
    cases hw
  | emitting e' k name => exact absurd hs (h.traced t e' k name)
  | attempting => exact turns_attempting h hs (hs ▸ hw)
  | acquiring => exact turns_acquiring h hs (hs ▸ hw)
  | recording => exact turns_recording h hs (hs ▸ hw)
  | yielding => exact turns_yielding h hs (hs ▸ hw)
  | refusing => exact turns_refusing h hs (hs ▸ hw)
  | leaving => exact turns_leaving h hs (hs ▸ hw)
  | freeing => exact turns_freeing h hs (hs ▸ hw)
  | accessing => exact turns_accessing h hs (hs ▸ hw)
  | judging => exact turns_judging h hs (hs ▸ hw)
  | waiting => exact turns_waiting h hs (hs ▸ hw)
  | parking => exact turns_parking h hs (hs ▸ hw)
  | rejoining => exact turns_rejoining h hs (hs ▸ hw)
  | waking => exact turns_waking h hs (hs ▸ hw)
  | notifying => exact turns_notifying h hs (hs ▸ hw)
  | tagging => exact turns_tagging h hs (hs ▸ hw)

end Advance

theorem agrees_of_begin {call : Call V} (h : Agrees e home w b) (hc : call.Traced e home)
    (ha : w.begin t call = some w') : Agrees e home w' (b.turn t (b t)) := by
  have hb := Beside.refl t w
  unfold begin at ha
  split at ha
  · rename_i hs
    have hfit : Fits e home w.holder t {} (w.thread t).kept (b t) := h.at_stage hs
    cases call with
    | emit => contradiction
    | lock patience e' m label slot =>
      obtain ⟨rfl, hhome⟩ := hc
      simp only [opening] at ha
      cases hl : LockName.ofString? label with
      | none =>
        rw [hl] at ha
        cases ha
        exact h.stage hb rfl hfit nofun
      | some name =>
        rw [hl] at ha
        cases ha
        exact h.stage hb rfl (hfit.want ⟨rfl, hhome name hl⟩) nofun
    | leave how slot =>
      cases hg : w.guard? t slot with
      | none => simp [opening, hg] at ha
      | some g =>
        simp only [opening, hg] at ha
        cases ha
        exact h.slots hb rfl slot _ (hfit.carry (kept_pop (h.rest t) hg)) nofun
    | access slot change =>
      cases hg : w.guard? t slot with
      | none => simp [opening, hg] at ha
      | some g =>
        simp only [opening, hg] at ha
        cases ha
        exact h.stage hb rfl hfit nofun
    | wait c slot =>
      cases hg : w.guard? t slot with
      | none => simp [opening, hg] at ha
      | some g =>
        simp only [opening, hg, Option.bind_some] at ha
        split at ha
        · contradiction
        · cases ha
          exact h.stage hb rfl (hfit.borrow (mem_kept_of_head? (h.rest t) hg)) nofun
    | waitWhile c slot condition =>
      cases hg : w.guard? t slot with
      | none => simp [opening, hg] at ha
      | some g =>
        simp only [opening, hg, Option.bind_some] at ha
        split at ha
        · contradiction
        · cases ha
          exact h.stage hb rfl (hfit.borrow (mem_kept_of_head? (h.rest t) hg)) nofun
    | notifyOne c | notifyAll c | tag =>
      cases ha
      exact h.stage hb rfl hfit nofun
  · contradiction

theorem agrees_of_rouse (h : Agrees e home w b) (ha : w.rouse t = some w') :
    Agrees e home w' b := by
  unfold rouse at ha
  split at ha
  · rename_i c g resume hs
    cases ha
    have hr (t' : ThreadId) := thread_rouseAll
      (w.setWaiters c ((w.waiters c).filter (·.thread ≠ t)))
      ((w.waiters c).filter (·.thread = t)) t'
    constructor
    · intro t'
      rw [view_roused (hr t'), Thread.kept, guards_roused (hr t')]
      refine (h.fits t').frame fun m hm => ?_
      rw [holder, mutex_rouseAll]
      exact hm
    · intro t'
      rw [guards_roused (hr t')]
      exact h.rest t'
    · intro t' e k name
      exact stage_roused (hr t') (h.traced t' e k name)
  · contradiction

theorem agrees_of_collect {a : Answer V} (h : Agrees e home w b)
    (ha : w.collect t = some (a, w')) : Agrees e home w' (b.turn t (b t)) := by
  unfold collect at ha
  split at ha
  · rename_i hs
    have hfit : Fits e home w.holder t {} (w.thread t).kept (b t) := h.at_stage hs
    cases ha
    exact h.stage (Beside.refl t w) rfl hfit nofun
  · contradiction

end World

end LockTrace
