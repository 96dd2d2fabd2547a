import LockTrace.Proofs.Threads.Course
import LockTrace.Threads.World

namespace LockTrace

open scoped List

/-- What a stage means for the guards of its thread: the attempt that has no answer yet, the guard
that the stream believes the thread to sleep on, a guard that is in no slot, one whose mutex is
given up, one whose mutex is held although the stream does not say so, one that is asked for, and
one that the call works with in its slot. -/
structure View where
  asked : Option LockName := none
  away : Option Guard := none
  carried : List Guard := []
  lent : List Guard := []
  veiled : List Guard := []
  wanted : List Guard := []
  borrowed : List Guard := []

def Stage.view {V : Type} : Stage V → View
  | .attempting _ g _ => { wanted := [g] }
  | .acquiring _ g _ | .refusing g => { asked := some g.name, wanted := [g] }
  | .recording g _ => { asked := some g.name, carried := [g], veiled := [g] }
  | .yielding g _ | .freeing _ g _ => { carried := [g], veiled := [g] }
  | .leaving _ g => { carried := [g] }
  | .judging _ g _ _ | .waiting _ g _ => { borrowed := [g] }
  | .parking _ g _ | .waking _ g _ => { away := some g, veiled := [g] }
  | .parked _ g _ | .rejoining _ g _ => { away := some g, lent := [g] }
  | _ => {}

/-- All guards in the slots of a thread. -/
def Thread.kept {V : Type} (th : Thread V) : List Guard := th.guards.entries.flatMap (·.2)

section Kept

theorem flatMap_put (slot : Slot) (gs : List Guard) (es : List (Slot × List Guard)) :
    (Table.put slot gs es).flatMap (·.2) ++ (Table.find? slot es).getD [] ~
      es.flatMap (·.2) ++ gs := by
  induction es with
  | nil => simp [Table.put, Table.find?]
  | cons e es ih =>
    obtain ⟨s, gs'⟩ := e
    by_cases h : s = slot
    · simp only [Table.put, Table.find?, if_pos h, List.flatMap_cons, Option.getD_some]
      calc gs ++ es.flatMap (·.2) ++ gs'
          ~ gs' ++ (gs ++ es.flatMap (·.2)) := List.perm_append_comm
        _ ~ gs' ++ (es.flatMap (·.2) ++ gs) := List.perm_append_comm.append_left gs'
        _ = gs' ++ es.flatMap (·.2) ++ gs := (List.append_assoc ..).symm
    · simp only [Table.put, Table.find?, if_neg h, List.flatMap_cons, List.append_assoc]
      exact ih.append_left gs'

variable {V : Type} {th : Thread V}

/-- A slot that gets other guards than it had changes what the thread keeps by just that. -/
theorem kept_set (hr : th.guards.rest = []) (slot : Slot) (gs : List Guard) :
    ({ th with guards := th.guards.set slot gs } : Thread V).kept ++ th.guards.get slot ~
      th.kept ++ gs := by
  have h := flatMap_put slot gs th.guards.entries
  rw [Table.get, hr]
  exact h

/-- A guard that is put behind the others is kept besides them. -/
theorem kept_push (hr : th.guards.rest = []) (slot : Slot) (g : Guard) :
    ({ th with guards := th.guards.set slot (th.guards.get slot ++ [g]) } : Thread V).kept ~
      g :: th.kept := by
  refine List.perm_iff_count.mpr fun x => ?_
  have h := (kept_set hr slot (th.guards.get slot ++ [g])).count_eq x
  simp only [List.count_append, List.count_cons, List.count_nil] at h ⊢
  omega

theorem kept_pop (hr : th.guards.rest = []) {slot : Slot} {g : Guard}
    (hg : (th.guards.get slot).head? = some g) :
    g :: ({ th with guards := th.guards.set slot (th.guards.get slot).tail } : Thread V).kept ~
      th.kept := by
  refine List.perm_iff_count.mpr fun x => ?_
  have h := (kept_set hr slot (th.guards.get slot).tail).count_eq x
  obtain ⟨gs, he⟩ := List.head?_eq_some_iff.mp hg
  simp only [he, List.tail_cons, List.count_append, List.count_cons] at h ⊢
  omega

theorem mem_kept_of_head? (hr : th.guards.rest = []) {slot : Slot} {g : Guard}
    (hg : (th.guards.get slot).head? = some g) : g ∈ th.kept :=
  (kept_pop hr hg).subset (List.mem_cons_self ..)

end Kept

/-- The guard is recorded by the one emitter, and its name is that of its mutex. -/
def Guard.Traced (e : EmitterId) (home : LockName → MutexId) (g : Guard) : Prop :=
  g.emitter = e ∧ home g.name = g.mutex

/-- The guards of a thread are those of its page, up to what its stage has changed. Those that hold
their mutexes are the only ones to do so. -/
structure Fits (e : EmitterId) (home : LockName → MutexId) (holder : MutexId → Option ThreadId)
    (t : ThreadId) (v : View) (kept : List Guard) (p : Page) : Prop where
  asked : p.asked = v.asked
  away : p.away = v.away
  own : kept ++ v.carried ~ v.lent ++ (v.veiled ++ p.guards)
  holds : ∀ g ∈ v.veiled ++ p.guards, holder g.mutex = some t
  apart : ((v.veiled ++ p.guards).map (·.mutex)).Nodup
  traced : ∀ g ∈ kept ++ v.carried ++ v.wanted, g.Traced e home
  borrowed : ∀ g ∈ v.borrowed, g ∈ kept

namespace Fits

variable {e : EmitterId} {home : LockName → MutexId} {holder holder' : MutexId → Option ThreadId}
  {t t' : ThreadId} {v : View} {kept kept' : List Guard} {p : Page} {g : Guard}

/-- Only what happens to the mutexes that a thread holds matters to it. -/
theorem frame (h : Fits e home holder t v kept p)
    (hh : ∀ m, holder m = some t → holder' m = some t) : Fits e home holder' t v kept p :=
  { h with holds := fun g hg => hh _ (h.holds g hg) }

theorem traced_of_mem (h : Fits e home holder t v kept p) (hg : g ∈ v.veiled ++ p.guards) :
    g.Traced e home := by
  apply h.traced
  exact List.mem_append_left _ (h.own.mem_iff.mpr (List.mem_append_right _ hg))

/-- A thread that gets hold of a mutex by a traced guard is the only one that holds something under
the guard's name. -/
theorem name_ne (h : Fits e home holder t v kept p) (hg : g ∈ v.veiled) {kept' : List Guard}
    {v' : View} {p' : Page} (h' : Fits e home holder t' v' kept' p') (hp : t' = t → p' = p)
    {g' : Guard} (hg' : g' ∈ p'.guards) : g'.name ≠ g.name := by
  intro hn
  have hm : g'.mutex = g.mutex := by
    rw [← (h.traced_of_mem (List.mem_append_left _ hg)).2,
      ← (h'.traced_of_mem (List.mem_append_right _ hg')).2, hn]
  have hs := h.holds g (List.mem_append_left _ hg)
  have hs' := h'.holds g' (List.mem_append_right _ hg')
  rw [hm, hs] at hs'
  obtain rfl := Option.some_inj.mp hs'
  have ha := h.apart
  rw [List.map_append, List.nodup_append] at ha
  rw [hp rfl] at hg'
  exact ha.2.2 _ (List.mem_map_of_mem hg) _ (List.mem_map_of_mem hg') hm.symm

/-- A call begins that wants a guard. -/
theorem want (h : Fits e home holder t {} kept p) (hg : g.Traced e home) :
    Fits e home holder t { wanted := [g] } kept p :=
  { h with
    traced := fun x hx => by
      rcases List.mem_append.mp hx with hx | hx
      · exact h.traced x (List.mem_append_left _ hx)
      · rw [List.mem_singleton.mp hx]
        exact hg }

/-- A call begins that works with a guard in its slot. -/
theorem borrow (h : Fits e home holder t {} kept p) (hg : g ∈ kept) :
    Fits e home holder t { borrowed := [g] } kept p :=
  { h with
    borrowed := fun x hx => by
      rw [List.mem_singleton.mp hx]
      exact hg }

/-- A call begins that ends a guard. -/
theorem carry (h : Fits e home holder t {} kept p) (hk : g :: kept' ~ kept) :
    Fits e home holder t { carried := [g] } kept' p :=
  { h with
    own := by
      have ho := h.own
      rw [List.append_nil] at ho
      exact (List.perm_append_singleton g kept').trans (hk.trans ho)
    traced := fun x hx => by
      apply h.traced
      rw [List.append_nil] at hx ⊢
      rw [List.append_nil]
      exact hk.subset ((List.perm_append_singleton g kept').subset hx)
    borrowed := by simp }

theorem nodup_guards (h : Fits e home holder t v kept p) : p.guards.Nodup := by
  have ha := h.apart
  rw [List.map_append] at ha
  exact (List.nodup_append.mp ha).2.1.of_map

theorem guards_drop (hn : p.guards.Nodup) (hg : g ∈ p.guards) :
    g :: (p.drop g).guards ~ p.guards := by
  refine List.perm_iff_count.mpr fun x => ?_
  have hc := List.count_eq_one_of_mem hn hg
  simp only [Page.guards, Page.drop, List.count_append, List.count_cons, List.count_erase,
    beq_iff_eq] at hc ⊢
  by_cases hx : g = x
  · subst hx
    simp only [if_true]
    omega
  · simp only [if_neg hx, Nat.sub_zero, Nat.add_zero]

/-- Nothing is asked for, carried or hidden any more. -/
theorem clear (h : Fits e home holder t v kept p) (hc : v.carried = []) (hl : v.lent = [])
    (hv : v.veiled = []) {p' : Page} (hp : p'.guards = p.guards) (ha : p'.asked = none)
    (hw : p'.away = none) : Fits e home holder t {} kept p' where
  asked := ha
  away := hw
  own := by
    have ho := h.own
    rw [hc, hl, hv] at ho
    rw [hp]
    exact ho
  holds x hx := h.holds x (by rw [hv]; rwa [hp] at hx)
  apart := by
    have hn := h.apart
    rw [hv] at hn
    rwa [hp]
  traced x hx := by
    apply h.traced
    rw [List.append_nil, List.append_nil] at hx
    exact List.mem_append_left _ (List.mem_append_left _ hx)
  borrowed := by simp

/-- The attempt is recorded. -/
theorem ask (h : Fits e home holder t { wanted := [g] } kept p) :
    Fits e home holder t { asked := some g.name, wanted := [g] } kept
      { p with asked := some g.name } :=
  { h with asked := rfl }

/-- The mutex is free, and the thread takes it. -/
theorem take (h : Fits e home holder t { asked := some g.name, wanted := [g] } kept p)
    (hf : holder g.mutex = none) (hg : holder' g.mutex = some t)
    (hh : ∀ m, holder m = some t → holder' m = some t) :
    Fits e home holder' t { asked := some g.name, carried := [g], veiled := [g] } kept p where
  asked := h.asked
  away := h.away
  own := by
    have ho := h.own
    rw [List.append_nil] at ho
    exact (List.perm_append_singleton g kept).trans (ho.cons g)
  holds x hx := by
    rcases List.mem_cons.mp hx with rfl | hx
    · exact hg
    · exact hh _ (h.holds x hx)
  apart := by
    refine List.nodup_cons.mpr ⟨fun hm => ?_, h.apart⟩
    obtain ⟨x, hx, he⟩ := List.mem_map.mp hm
    have hs := h.holds x hx
    rw [he, hf] at hs
    contradiction
  traced x hx := by
    apply h.traced
    rw [List.append_nil] at hx ⊢
    exact hx
  borrowed := by simp

/-- The acquisition is recorded, and the guard goes into a slot. -/
theorem keep (h : Fits e home holder t
      { asked := some g.name, carried := [g], veiled := [g] } kept p) (hk : kept' ~ g :: kept) :
    Fits e home holder t {} kept' { p with asked := none, hand := g :: p.hand } where
  asked := rfl
  away := h.away
  own := by
    rw [List.append_nil]
    exact hk.trans ((List.perm_append_singleton g kept).symm.trans h.own)
  holds := h.holds
  apart := h.apart
  traced x hx := by
    apply h.traced
    rw [List.append_nil, List.append_nil] at hx
    rw [List.append_nil]
    exact (hk.trans (List.perm_append_singleton g kept).symm).subset hx
  borrowed := by simp

/-- The acquisition could not be recorded, or was one of a poisoned mutex. -/
theorem conceal (h : Fits e home holder t
      { asked := some g.name, carried := [g], veiled := [g] } kept p) :
    Fits e home holder t { carried := [g], veiled := [g] } kept { p with asked := none } :=
  { h with asked := rfl }

/-- A mutex that the stream does not know to be held is let go. -/
theorem free (h : Fits e home holder t { carried := [g], veiled := [g] } kept p)
    (hh : ∀ m, m ≠ g.mutex → holder m = some t → holder' m = some t) :
    Fits e home holder' t {} kept p where
  asked := h.asked
  away := h.away
  own := by
    rw [List.append_nil]
    exact ((List.perm_append_singleton g kept).symm.trans h.own).cons_inv
  holds x hx := by
    refine hh _ (fun hm => ?_) (h.holds x (List.mem_cons_of_mem g hx))
    exact (List.nodup_cons.mp h.apart).1 (List.mem_map.mpr ⟨x, hx, hm⟩)
  apart := (List.nodup_cons.mp h.apart).2
  traced x hx := by
    apply h.traced
    rw [List.append_nil, List.append_nil] at hx
    exact List.mem_append_left _ (List.mem_append_left _ hx)
  borrowed := by simp

theorem mem_of_carried (h : Fits e home holder t { carried := [g] } kept p) : g ∈ p.guards :=
  h.own.subset (List.mem_append_right _ (List.mem_singleton_self g))

/-- The end of a guard is recorded, or should be. -/
theorem leave (h : Fits e home holder t { carried := [g] } kept p) :
    Fits e home holder t { carried := [g], veiled := [g] } kept (p.drop g) := by
  have hd := guards_drop h.nodup_guards h.mem_of_carried
  exact {
    h with
    own := h.own.trans hd.symm
    holds := fun x hx => h.holds x (hd.subset hx)
    apart := ((hd.map (·.mutex)).nodup_iff).mpr h.apart }

theorem mem_of_borrowed (h : Fits e home holder t { borrowed := [g] } kept p) : g ∈ p.guards := by
  have ho := h.own
  rw [List.append_nil] at ho
  exact ho.subset (h.borrowed g (List.mem_singleton_self g))

/-- The beginning of a sleep is recorded. -/
theorem sleep (h : Fits e home holder t { borrowed := [g] } kept p) :
    Fits e home holder t { away := some g, veiled := [g] } kept
      { p.drop g with away := some g } := by
  have hd := guards_drop h.nodup_guards h.mem_of_borrowed
  exact {
    h with
    away := rfl
    own := h.own.trans hd.symm
    holds := fun x hx => h.holds x (hd.subset hx)
    apart := ((hd.map (·.mutex)).nodup_iff).mpr h.apart
    borrowed := by simp }

theorem mem_kept_of_veiled (h : Fits e home holder t { away := some g, veiled := [g] } kept p) :
    g ∈ kept := by
  have ho := h.own
  rw [List.append_nil] at ho
  exact ho.symm.subset (List.mem_cons_self ..)

/-- The mutex is given up for the time of the sleep. -/
theorem lend (h : Fits e home holder t { away := some g, veiled := [g] } kept p)
    (hh : ∀ m, m ≠ g.mutex → holder m = some t → holder' m = some t) :
    Fits e home holder' t { away := some g, lent := [g] } kept p :=
  { h with
    holds := fun x hx => by
      refine hh _ (fun hm => ?_) (h.holds x (List.mem_cons_of_mem g hx))
      exact (List.nodup_cons.mp h.apart).1 (List.mem_map.mpr ⟨x, hx, hm⟩)
    apart := (List.nodup_cons.mp h.apart).2 }

/-- The sleeper gets its mutex back. -/
theorem regain (h : Fits e home holder t { away := some g, lent := [g] } kept p)
    (hf : holder g.mutex = none) (hg : holder' g.mutex = some t)
    (hh : ∀ m, holder m = some t → holder' m = some t) :
    Fits e home holder' t { away := some g, veiled := [g] } kept p :=
  { h with
    holds := fun x hx => by
      rcases List.mem_cons.mp hx with rfl | hx
      · exact hg
      · exact hh _ (h.holds x hx)
    apart := by
      refine List.nodup_cons.mpr ⟨fun hm => ?_, h.apart⟩
      obtain ⟨x, hx, he⟩ := List.mem_map.mp hm
      have hs := h.holds x hx
      rw [he, hf] at hs
      contradiction }

/-- The end of a sleep is recorded, or should be. -/
theorem wake (h : Fits e home holder t { away := some g, veiled := [g] } kept p) :
    Fits e home holder t {} kept { p with away := none, hand := g :: p.hand } :=
  { h with
    away := rfl
    borrowed := by simp }

/-- A panic keeps the sleeper from its sleep, and the guard is left behind. -/
theorem strand (h : Fits e home holder t { away := some g, veiled := [g] } kept p) :
    Fits e home holder t {} kept { p with away := none, stale := g :: p.stale } := by
  have hp : g :: p.guards ~
      Page.guards { p with away := none, stale := g :: p.stale } := List.perm_middle.symm
  exact {
    h with
    away := rfl
    own := h.own.trans hp
    holds := fun x hx => h.holds x (hp.symm.subset hx)
    apart := ((hp.map (·.mutex)).nodup_iff).mp h.apart
    borrowed := by simp }

end Fits

end LockTrace
