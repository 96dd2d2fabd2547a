import LockTrace.Proofs.Threads.Tenure
import LockTrace.Proofs.Threads.Turn

namespace LockTrace

open scoped List
open Function (update update_self update_of_ne update_idem update_eq_self)

variable {V R : Type}

/-- The guard in its slot that a stage works with. -/
def Stage.works : Stage V → Option Guard
  | .accessing g _ | .judging _ g _ _ | .waiting _ g _ | .parking _ g _ | .parked _ g _
  | .rejoining _ g _ | .waking _ g _ => some g
  | _ => none

/-- The guard that a stage has brought into another tenure than its place in a slot, or outside of
all slots, gives it. -/
def Stage.tenure? : Stage V → Option (Guard × Tenure)
  | .recording g _ => some (g, .gripping)
  | .yielding g _ => some (g, .yielding)
  | .leaving how g => some (g, .leaving how)
  | .freeing how g r => some (g, .parting how r)
  | .parking _ g _ => some (g, .drowsy)
  | .parked _ g _ | .rejoining _ g _ => some (g, .asleep)
  | .waking _ g _ => some (g, .waking)
  | _ => none

/-- A stage at which a thread has no guard in hand. -/
structure Stage.Bare (s : Stage V) : Prop where
  carried : s.view.carried = []
  lent : s.view.lent = []
  tenure : s.tenure? = none
  works : s.works = none

/-- Where a thread stands with the guards by itself, if it keeps these. -/
def keeping (kept : List Guard) (g : Guard) : Tenure := if g ∈ kept then .owned else .absent

/-- Where a thread at a stage stands with the guards, if it keeps these. -/
def Stage.tenure (s : Stage V) (kept : List Guard) : Guard → Tenure :=
  match s.tenure? with
  | some (g, p) => update (keeping kept) g p
  | none => keeping kept

section Keeping

variable {kept kept' : List Guard} {g : Guard}

theorem keeping_of_mem (h : g ∈ kept) : keeping kept g = .owned := if_pos h

theorem keeping_of_notMem (h : g ∉ kept) : keeping kept g = .absent := if_neg h

theorem update_keeping_owned (h : g ∈ kept) : update (keeping kept) g .owned = keeping kept := by
  rw [← keeping_of_mem h, update_eq_self]

/-- A kept guard that a stage has had in hand is put back. -/
theorem update_update_owned (h : g ∈ kept) (p : Tenure) :
    update (update (keeping kept) g p) g .owned = keeping kept := by
  rw [update_idem, update_keeping_owned h]

/-- A guard that a stage has had in hand is gone. -/
theorem update_update_absent (h : g ∉ kept) (p : Tenure) :
    update (update (keeping kept) g p) g .absent = keeping kept := by
  rw [update_idem, ← keeping_of_notMem h, update_eq_self]

/-- A guard that is kept besides the others makes no difference to them. -/
theorem update_keeping_cons (h : kept ~ g :: kept') (p : Tenure) :
    update (keeping kept) g p = update (keeping kept') g p := by
  funext g'
  by_cases hg : g' = g
  · rw [hg, update_self, update_self]
  · rw [update_of_ne hg, update_of_ne hg]
    simp only [keeping, h.mem_iff, List.mem_cons, or_iff_right hg]

end Keeping

/-- A guard stands where its place gives it to, or where the stage has brought it. -/
theorem Stage.tenure_cases (s : Stage V) (kept : List Guard) (g : Guard) :
    s.tenure kept g = keeping kept g ∨ s.tenure? = some (g, s.tenure kept g) := by
  rw [Stage.tenure]
  cases s.tenure? with
  | none => exact .inl rfl
  | some x =>
    obtain ⟨g', p⟩ := x
    dsimp only
    by_cases hg : g = g'
    · subst hg
      rw [update_self]
      exact .inr rfl
    · exact .inl (update_of_ne hg ..)

theorem Stage.tenure?_of_tenure {s : Stage V} {kept : List Guard} {g : Guard} {p : Tenure}
    (h : s.tenure kept g = p) (ho : p ≠ .owned) (ha : p ≠ .absent) : s.tenure? = some (g, p) := by
  subst h
  rcases s.tenure_cases kept g with he | hs
  · rw [he] at ho ha
    by_cases hg : g ∈ kept
    · exact absurd (keeping_of_mem hg) ho
    · exact absurd (keeping_of_notMem hg) ha
  · exact hs

/-- A kept guard in another tenure than its place gives it is worked with. -/
theorem Stage.works_of_tenure? {s : Stage V} {g : Guard} {p : Tenure} (h : s.tenure? = some (g, p))
    (hp : p.Kept) : s.works = some g := by
  cases s <;> cases h
  all_goals first
    | rfl
    | contradiction

/-- A guard that is there or to be there, but not kept, is carried. -/
theorem Stage.carried_of_tenure? {s : Stage V} {g : Guard} {p : Tenure}
    (h : s.tenure? = some (g, p)) (hp : ¬ p.Kept) : s.view.carried = [g] := by
  cases s <;> cases h
  all_goals first
    | rfl
    | exact absurd trivial hp

/-- A thread at a stage has the mutexes of all guards that it keeps or carries, but those that it
has lent for a sleep, and no two of these guards are of the same mutex. It keeps the guard that it
works with. -/
structure Grasp (holder : MutexId → Option ThreadId) (t : ThreadId) (kept : List Guard)
    (s : Stage V) : Prop where
  holds : ∀ g ∈ kept ++ s.view.carried, g ∉ s.view.lent → holder g.mutex = some t
  apart : ((kept ++ s.view.carried).map (·.mutex)).Nodup
  works : ∀ g, s.works = some g → g ∈ kept

namespace Grasp

variable {holder holder' : MutexId → Option ThreadId} {t : ThreadId} {kept kept' : List Guard}
  {s s' : Stage V} {g : Guard}

theorem frame (h : Grasp holder t kept s) (hh : ∀ m, holder m = some t → holder' m = some t) :
    Grasp holder' t kept s :=
  { h with holds := fun g hg hl => hh _ (h.holds g hg hl) }

/-- A stage that carries and lends the same. -/
theorem same (h : Grasp holder t kept s) (hc : s'.view.carried = s.view.carried)
    (hl : s'.view.lent = s.view.lent) (hw : ∀ g, s'.works = some g → g ∈ kept) :
    Grasp holder t kept s' where
  holds := by
    rw [hc, hl]
    exact h.holds
  apart := by
    rw [hc]
    exact h.apart
  works := hw

/-- What a thread keeps at a stage that carries nothing has different mutexes. -/
theorem mutex_ne (h : Grasp holder t kept s) (hc : s.view.carried = [g]) {x : Guard}
    (hx : x ∈ kept) : x.mutex ≠ g.mutex := by
  have ha := h.apart
  rw [hc, List.map_append, List.nodup_append] at ha
  exact ha.2.2 _ (List.mem_map_of_mem hx) _ (List.mem_singleton_self _)

theorem notMem (h : Grasp holder t kept s) (hc : s.view.carried = [g]) : g ∉ kept :=
  fun hg => h.mutex_ne hc hg rfl

/-- Two guards that a thread keeps are of different mutexes. -/
theorem eq_of_mutex (h : Grasp holder t kept s) {x : Guard} (hx : x ∈ kept) (hg : g ∈ kept)
    (hm : x.mutex = g.mutex) : x = g := by
  have ha := h.apart
  rw [List.map_append] at ha
  exact List.inj_on_of_nodup_map (List.nodup_append.mp ha).1 hx hg hm

/-- A thread that keeps no guard of a mutex gets hold of it. -/
theorem take (h : Grasp holder t kept s) (hc : s.view.carried = []) (hl : s.view.lent = [])
    (hf : holder g.mutex = none) (hg : holder' g.mutex = some t)
    (hh : ∀ m, holder m = some t → holder' m = some t) (hc' : s'.view.carried = [g])
    (hw : s'.works = none) : Grasp holder' t kept s' where
  holds x hx _ := by
    rw [hc'] at hx
    rcases List.mem_append.mp hx with hx | hx
    · refine hh _ (h.holds x (List.mem_append_left _ hx) ?_)
      rw [hl]
      exact List.not_mem_nil
    · rw [List.mem_singleton.mp hx]
      exact hg
  apart := by
    have ha := h.apart
    rw [hc, List.append_nil] at ha
    rw [hc']
    refine ((List.perm_append_singleton g kept).map (·.mutex)).nodup_iff.mpr
      (List.nodup_cons.mpr ⟨fun hm => ?_, ha⟩)
    obtain ⟨x, hx, he⟩ := List.mem_map.mp hm
    have hs : holder x.mutex = some t := by
      refine h.holds x (List.mem_append_left _ hx) ?_
      rw [hl]
      exact List.not_mem_nil
    rw [he, hf] at hs
    contradiction
  works x hx := by
    rw [hw] at hx
    contradiction

/-- A guard that was carried is put into a slot, or the other way round. -/
theorem swap (h : Grasp holder t kept s) (hl : s.view.lent = [])
    (hp : kept' ++ s'.view.carried ~ kept ++ s.view.carried) (hw : s'.works = none) :
    Grasp holder t kept' s' where
  holds x hx _ := by
    refine h.holds x (hp.subset hx) ?_
    rw [hl]
    exact List.not_mem_nil
  apart := ((hp.map (·.mutex)).nodup_iff).mpr h.apart
  works x hx := by
    rw [hw] at hx
    contradiction

/-- The mutex of the guard that is carried is let go. -/
theorem free (h : Grasp holder t kept s) (hc : s.view.carried = [g]) (hl : s.view.lent = [])
    (hh : ∀ m, m ≠ g.mutex → holder m = some t → holder' m = some t) (hc' : s'.view.carried = [])
    (hw : s'.works = none) : Grasp holder' t kept s' where
  holds x hx _ := by
    rw [hc', List.append_nil] at hx
    refine hh _ (h.mutex_ne hc hx) (h.holds x (List.mem_append_left _ hx) ?_)
    rw [hl]
    exact List.not_mem_nil
  apart := by
    have ha := h.apart
    rw [List.map_append] at ha
    rw [hc', List.append_nil]
    exact (List.nodup_append.mp ha).1
  works x hx := by
    rw [hw] at hx
    contradiction

/-- The mutex of a guard that is kept is given up for the time of a sleep. -/
theorem lend (h : Grasp holder t kept s) (hc : s.view.carried = []) (hl : s.view.lent = [])
    (hg : g ∈ kept) (hh : ∀ m, m ≠ g.mutex → holder m = some t → holder' m = some t)
    (hc' : s'.view.carried = []) (hl' : s'.view.lent = [g]) (hw : s'.works = some g) :
    Grasp holder' t kept s' where
  holds x hx hxg := by
    rw [hc', List.append_nil] at hx
    rw [hl'] at hxg
    refine hh _ (fun hm => hxg ?_) (h.holds x (List.mem_append_left _ hx) ?_)
    · rw [h.eq_of_mutex hx hg hm]
      exact List.mem_singleton_self g
    · rw [hl]
      exact List.not_mem_nil
  apart := by
    rw [hc', ← hc]
    exact h.apart
  works x hx := by
    rw [hw] at hx
    exact Option.some_inj.mp hx ▸ hg

/-- The sleeper gets its mutex back. -/
theorem regain (h : Grasp holder t kept s) (hc : s.view.carried = []) (hl : s.view.lent = [g])
    (hg : holder' g.mutex = some t) (hh : ∀ m, holder m = some t → holder' m = some t)
    (hc' : s'.view.carried = []) (hw : s'.works = s.works) : Grasp holder' t kept s' where
  holds x hx _ := by
    rw [hc', ← hc] at hx
    by_cases hxg : x = g
    · rw [hxg]
      exact hg
    · refine hh _ (h.holds x hx ?_)
      rw [hl]
      exact fun hm => hxg (List.mem_singleton.mp hm)
  apart := by
    rw [hc', ← hc]
    exact h.apart
  works := by
    rw [hw]
    exact h.works

end Grasp

end LockTrace
