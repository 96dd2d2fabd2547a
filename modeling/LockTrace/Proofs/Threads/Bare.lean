import LockTrace.Proofs.Threads.Emission
import Mathlib.Logic.Function.Basic

namespace LockTrace

namespace Bare

/-- Where a thread stands inside a call on a mutex or a condition variable that nothing traces. An
acquisition knows by which name its failure is to be told. A mutex that it has got poisoned it gives
back by a move of its own. -/
inductive Stage (V : Type)
  | idle
  | finished (a : Answer V)
  | acquiring (patience : Patience) (m : MutexId) (name : LockName) (slot : Slot)
  | yielding (m : MutexId) (e : TraceError)
  | freeing (how : Leave) (m : MutexId)
  | accessing (m : MutexId) (change : V → V)
  | judging (c : CondvarId) (m : MutexId) (condition : Condition V) (seen : List V)
  | parking (c : CondvarId) (m : MutexId) (resume : Resume V)
  | parked (c : CondvarId) (m : MutexId) (resume : Resume V)
  | rejoining (c : CondvarId) (m : MutexId) (resume : Resume V)
  | notifying (c : CondvarId) (all : Bool)

/-- A thread, and for each slot the mutexes whose guards it keeps there. -/
structure Thread (V : Type) where
  stage : Stage V := .idle
  guards : Slot → List MutexId := fun _ => []

end Bare

/-- Threads that use mutexes and condition variables as they are. -/
structure Bare (V : Type) where
  mutex : MutexId → Mutex V
  waiters : CondvarId → List Waiter
  thread : ThreadId → Bare.Thread V

variable {V R : Type}

namespace Bare

variable (b : Bare V)

def setThread (t : ThreadId) (th : Thread V) : Bare V :=
  { b with thread := Function.update b.thread t th }

def setStage (t : ThreadId) (s : Stage V) : Bare V :=
  b.setThread t { b.thread t with stage := s }

def finish (t : ThreadId) (a : Answer V) : Bare V := b.setStage t (.finished a)

def setGuards (t : ThreadId) (slot : Slot) (ms : List MutexId) : Bare V :=
  b.setThread t { b.thread t with guards := Function.update (b.thread t).guards slot ms }

def keep (t : ThreadId) (m : MutexId) (slot : Slot) : Bare V :=
  b.setGuards t slot ((b.thread t).guards slot ++ [m])

def setMutex (m : MutexId) (mu : Mutex V) : Bare V :=
  { b with mutex := Function.update b.mutex m mu }

def take (t : ThreadId) (m : MutexId) : Bare V := b.setMutex m { b.mutex m with holder := some t }

def free (m : MutexId) (unwinding : Bool) : Bare V :=
  let mu := b.mutex m
  b.setMutex m { mu with holder := none, poisoned := mu.poisoned || (unwinding && mu.poisons) }

def setWaiters (c : CondvarId) (ws : List Waiter) : Bare V :=
  { b with waiters := Function.update b.waiters c ws }

def rouseAll (b : Bare V) : List Waiter → Bare V
  | [] => b
  | x :: xs =>
    let b := match (b.thread x.thread).stage with
      | .parked c m resume => b.setStage x.thread (.rejoining c m resume)
      | _ => b
    b.rouseAll xs

/-- The first stage of a call. Without tracing there is nothing to record and no tag to ask for. -/
def opening (t : ThreadId) : Call V → Option (Stage V)
  | .emit .. | .tag => none
  | .lock p _ m label slot => (LockName.ofString? label).map (.acquiring p m · slot)
  | .leave how slot => ((b.thread t).guards slot).head?.map (.freeing how)
  | .access slot change => ((b.thread t).guards slot).head?.map (.accessing · change)
  | .wait c slot => ((b.thread t).guards slot).head?.bind fun m =>
    if (b.mutex m).poisons then none else some (.parking c m none)
  | .waitWhile c slot condition => ((b.thread t).guards slot).head?.bind fun m =>
    if (b.mutex m).poisons then none else some (.judging c m condition [])
  | .notifyOne c => some (.notifying c false)
  | .notifyAll c => some (.notifying c true)

def begin (t : ThreadId) (call : Call V) : Option (Bare V) :=
  match (b.thread t).stage with
  | .idle =>
    (b.opening t call).map fun stage =>
      match call with
      | .leave _ slot => (b.setGuards t slot ((b.thread t).guards slot).tail).setStage t stage
      | _ => b.setStage t stage
  | _ => none

/-- The thread does what its stage names, unless it has to wait for that. -/
def advance (t : ThreadId) (pick : List Waiter → Option Waiter) : Option (Bare V) :=
  match (b.thread t).stage with
  | .idle | .finished _ | .parked .. => none
  | .acquiring p m name slot =>
    match (b.mutex m).holder, p with
    | some _, .waits => none
    | some _, .tries => some (b.finish t .notHeld)
    | none, _ =>
      -- a poisoned mutex is handed out all the same, with the report that it is
      some <| if (b.mutex m).poisoned then (b.take t m).setStage t (.yielding m (.poisoned name))
        else ((b.take t m).keep t m slot).finish t .ok
  | .yielding m e => some ((b.free m false).finish t (.failed e))
  | .freeing how m =>
    some ((b.free m (how = .unwound)).finish t
      (if how = .unwound then .panicked .unwinding else .ok))
  | .accessing m change =>
    let v := change (b.mutex m).value
    some ((b.setMutex m { b.mutex m with value := v }).finish t (.value v))
  | .judging c m condition seen =>
    let value := (b.mutex m).value
    let (again, v) := condition seen value
    let b := b.setMutex m { b.mutex m with value := v }
    some <| if again then b.setStage t (.parking c m (some (condition, seen ++ [value])))
      else b.finish t .ok
  | .parking c m resume =>
    some <| if (b.waiters c).any (·.mutex ≠ m) then b.finish t (.panicked .mixedMutexes)
      else ((b.free m false).setWaiters c (b.waiters c ++ [⟨t, m⟩])).setStage t
        (.parked c m resume)
  | .rejoining c m resume =>
    if (b.mutex m).holder.isSome then none
    else some <| match resume with
      | none => (b.take t m).finish t .ok
      | some (condition, seen) => (b.take t m).setStage t (.judging c m condition seen)
  | .notifying c true =>
    some (((b.setWaiters c []).rouseAll (b.waiters c)).finish t (.count (b.waiters c).length))
  | .notifying c false =>
    match b.waiters c with
    | [] => some (b.finish t (.flag false))
    | sleepers =>
      match pick sleepers with
      | none => none
      | some x =>
        if x ∈ sleepers then
          some (((b.setWaiters c (sleepers.erase x)).rouseAll [x]).finish t (.flag true))
        else none

def rouse (t : ThreadId) : Option (Bare V) :=
  match (b.thread t).stage with
  | .parked c _ _ =>
    some ((b.setWaiters c ((b.waiters c).filter (·.thread ≠ t))).rouseAll
      ((b.waiters c).filter (·.thread = t)))
  | _ => none

def collect (t : ThreadId) : Option (Answer V × Bare V) :=
  match (b.thread t).stage with
  | .finished a => some (a, b.setStage t .idle)
  | _ => none

/-- One step of one thread. -/
inductive Move (b : Bare V) : Label V → Bare V → Prop
  | begin {t : ThreadId} {call : Call V} {b' : Bare V} (h : b.begin t call = some b') :
      Move b (.begin t call) b'
  | collect {t : ThreadId} {a : Answer V} {b' : Bare V} (h : b.collect t = some (a, b')) :
      Move b (.collect t a) b'
  | act {t : ThreadId} {b' : Bare V} (pick : List Waiter → Option Waiter)
      (h : b.advance t pick = some b') : Move b (.act t) b'
  | rouse {t : ThreadId} {b' : Bare V} (h : b.rouse t = some b') : Move b (.rouse t) b'

end Bare

/-- What a stage is if no records are made. A thread whose record of an outcome is still to be made
has that outcome already. Stages that only a record or a tag is asked for in are none. -/
def Stage.bare : Stage V → Bare.Stage V
  | .idle => .idle
  | .finished a => .finished a
  | .emitting .. | .tagging => .finished .ok
  | .attempting p g slot | .acquiring p g slot => .acquiring p g.mutex g.name slot
  | .recording .. => .finished .ok
  | .yielding g e => .yielding g.mutex e
  | .refusing _ => .finished .notHeld
  | .leaving how g | .freeing how g _ => .freeing how g.mutex
  | .accessing g change => .accessing g.mutex change
  | .judging c g condition seen => .judging c g.mutex condition seen
  | .waiting c g resume | .parking c g resume => .parking c g.mutex resume
  | .parked c g resume => .parked c g.mutex resume
  | .rejoining c g resume => .rejoining c g.mutex resume
  | .waking _ _ none => .finished .ok
  | .waking c g (some (condition, seen)) => .judging c g.mutex condition seen
  | .notifying c all => .notifying c all

/-- What a thread has got for a slot and does not keep there yet. -/
def Stage.coming : Stage V → Slot → List MutexId
  | .recording g slot, slot' => if slot = slot' then [g.mutex] else []
  | _, _ => []

/-- The stage is one of a call on a mutex or a condition variable, and nothing has gone wrong with
its records: a mutex that is given back at once was poisoned. -/
def Stage.Plain : Stage V → Prop
  | .emitting .. | .tagging => False
  | .yielding g e => e = .poisoned g.name
  | .freeing _ _ r => r = .ok ()
  | _ => True

/-- The call is one on a mutex or a condition variable. -/
def Call.Plain : Call V → Prop
  | .emit .. | .tag => False
  | .lock _ _ _ label _ => label ≠ ""
  | _ => True

theorem Stage.coming_of_pending {s : Stage V} (h : s.pending? = none) :
    s.coming = fun _ => [] := by
  cases s with
  | recording => contradiction
  | _ => rfl

def Thread.bare (th : Thread V) : Bare.Thread V :=
  ⟨th.stage.bare, fun slot => (th.guards.get slot).map (·.mutex) ++ th.stage.coming slot⟩

namespace World

/-- What is left of a world if its records are forgotten. -/
def bare (w : World V R) : Bare V := ⟨w.mutex, w.waiters, fun t => (w.thread t).bare⟩

variable {w w' : World V R} {t : ThreadId}

section Bare

variable (w t)

theorem bare_setThread (th : Thread V) :
    (w.setThread t th).bare = w.bare.setThread t th.bare := by
  simp only [bare, Bare.setThread, Bare.mk.injEq]
  refine ⟨rfl, rfl, funext fun t' => ?_⟩
  by_cases ht : t = t'
  · subst ht
    rw [thread_setThread_self, Function.update_self]
  · rw [thread_setThread_ne w ht, Function.update_of_ne (Ne.symm ht)]

variable {t} in
theorem bare_setStage {s : Stage V} (h : s.coming = (w.thread t).stage.coming) :
    (w.setStage t s).bare = w.bare.setStage t s.bare := by
  rw [setStage, bare_setThread, Bare.setStage, Thread.bare, h]
  rfl

theorem bare_setMutex (m : MutexId) (mu : Mutex V) :
    (w.setMutex m mu).bare = w.bare.setMutex m mu := by
  simp only [bare, Bare.setMutex, Bare.mk.injEq]
  refine ⟨funext fun m' => ?_, rfl, rfl⟩
  rw [mutex_setMutex, Function.update_apply]
  simp only [eq_comm]

theorem bare_setWaiters (c : CondvarId) (ws : List Waiter) :
    (w.setWaiters c ws).bare = w.bare.setWaiters c ws := by
  simp only [bare, Bare.setWaiters, Bare.mk.injEq]
  refine ⟨rfl, funext fun c' => ?_, rfl⟩
  rw [waiters, setWaiters, Table.get_set, Function.update_apply]
  simp only [eq_comm]
  rfl

@[simp] theorem mutex_bare (m : MutexId) : w.bare.mutex m = w.mutex m := rfl

@[simp] theorem waiters_bare (c : CondvarId) : w.bare.waiters c = w.waiters c := rfl

theorem bare_take (m : MutexId) : (w.take t m).bare = w.bare.take t m := bare_setMutex ..

theorem bare_free (m : MutexId) (unwinding : Bool) :
    (w.free m unwinding).bare = w.bare.free m unwinding := bare_setMutex ..

theorem bare_tagOf : (w.tagOf t).2.bare = w.bare := by
  cases h : (w.thread t).tag with
  | some n => rw [tagOf_some w h]
  | none =>
    rw [tagOf_none w h]
    refine (bare_setThread w t _).trans ?_
    exact congrArg (Bare.mk w.mutex w.waiters) (Function.update_eq_self t w.bare.thread)

variable {t} in
theorem guards_bare (hs : (w.thread t).stage.coming = fun _ => []) :
    (w.bare.thread t).guards = fun slot => (w.guards t slot).map (·.mutex) := by
  funext slot
  exact (congrArg (_ ++ · slot) hs).trans (List.append_nil _)

variable {t} in
theorem bare_setGuards (hs : (w.thread t).stage.coming = fun _ => []) (slot : Slot)
    (gs : List Guard) :
    (w.setGuards t slot gs).bare = w.bare.setGuards t slot (gs.map (·.mutex)) := by
  have hguards : (fun slot' => (((w.thread t).guards.set slot gs).get slot').map (·.mutex) ++
      (w.thread t).stage.coming slot') =
      Function.update (w.bare.thread t).guards slot (gs.map (·.mutex)) := by
    funext slot'
    rw [guards_bare w hs, hs, Table.get_set, Function.update_apply, List.append_nil]
    by_cases he : slot = slot'
    · rw [if_pos he, if_pos he.symm]
    · rw [if_neg he, if_neg (Ne.symm he)]
      rfl
  rw [setGuards, bare_setThread, Thread.bare, Bare.setGuards, hguards]
  rfl

/-- The guard of an acquisition that is still to be recorded is kept as good as one that is. -/
theorem bare_recording (hs : (w.thread t).stage.coming = fun _ => []) (g : Guard) (slot : Slot) :
    (w.setStage t (.recording g slot)).bare = (w.bare.keep t g.mutex slot).finish t .ok := by
  have hguards : (fun slot' => ((w.thread t).guards.get slot').map (·.mutex) ++
      (Stage.recording (V := V) g slot).coming slot') =
        Function.update (w.bare.thread t).guards slot
          ((w.bare.thread t).guards slot ++ [g.mutex]) := by
    funext slot'
    rw [guards_bare w hs, Function.update_apply]
    by_cases he : slot = slot'
    · subst he
      simp [Stage.coming, guards]
    · simp [Stage.coming, guards, he, Ne.symm he]
  rw [setStage, bare_setThread, Thread.bare]
  simp only [hguards, Bare.finish, Bare.setStage, Bare.keep, Bare.setGuards, Bare.setThread,
    Function.update_idem, Function.update_self]
  rfl

theorem stage_bare {s : Stage V} (hs : (w.thread t).stage = s) :
    (w.bare.thread t).stage = s.bare := congrArg Stage.bare hs

theorem bare_rouseAll (xs : List Waiter) : (w.rouseAll xs).bare = w.bare.rouseAll xs := by
  induction xs generalizing w with
  | nil => rfl
  | cons x xs ih =>
    rw [rouseAll, ih, Bare.rouseAll]
    cases hs : (w.thread x.thread).stage with
    | parked c g resume =>
      have hc : (Stage.rejoining c g resume).coming = (w.thread x.thread).stage.coming := by
        rw [hs]
        rfl
      simp only [stage_bare w x.thread hs, Stage.bare, bare_setStage w hc]
    | waking c g resume => cases resume <;> simp only [stage_bare w x.thread hs, Stage.bare]
    | _ => simp only [stage_bare w x.thread hs, Stage.bare]

end Bare

/-- Calls begin as they do without tracing. -/
theorem bare_begin {call : Call V} (hc : call.Plain) :
    (w.begin t call).map bare = w.bare.begin t call := by
  cases hs : (w.thread t).stage with
  | idle =>
    have hcoming : (w.thread t).stage.coming = fun _ => [] := by
      rw [hs]
      rfl
    have hstage {s : Stage V} (hs' : s.coming = fun _ => []) :
        (w.setStage t s).bare = w.bare.setStage t s.bare :=
      bare_setStage w (hs'.trans hcoming.symm)
    have hhead (slot : Slot) :
        ((w.bare.thread t).guards slot).head? = (w.guard? t slot).map (·.mutex) := by
      rw [guards_bare w hcoming, List.head?_map]
      rfl
    simp only [World.begin, Bare.begin, stage_bare w t hs, hs, Stage.bare, Option.map_map]
    cases call with
    | emit | tag => exact hc.elim
    | lock patience e m label slot =>
      obtain ⟨name, hname⟩ := Option.ne_none_iff_exists'.mp (mt LockName.ofString?_eq_none.mp hc)
      simp only [opening, Bare.opening, hname]
      exact congrArg some (hstage rfl)
    | leave how slot =>
      simp only [opening, Bare.opening, hhead]
      cases hg : w.guard? t slot with
      | none => rfl
      | some g =>
        have hs' : (Stage.leaving (V := V) how g).coming =
            ((w.setGuards t slot (w.guards t slot).tail).thread t).stage.coming := by
          rw [thread_setGuards_self, hs]
          rfl
        have hw := bare_setStage (w.setGuards t slot (w.guards t slot).tail) hs'
        rw [bare_setGuards w hcoming, List.map_tail] at hw
        rw [guards_bare w hcoming]
        exact congrArg some hw
    | access slot change =>
      simp only [opening, Bare.opening, hhead]
      cases w.guard? t slot with
      | none => rfl
      | some g => exact congrArg some (hstage rfl)
    | wait c slot | waitWhile c slot condition =>
      simp only [opening, Bare.opening, hhead]
      cases w.guard? t slot with
      | none => rfl
      | some g =>
        by_cases hg : (w.mutex g.mutex).poisons
        · simp [hg]
        · simp only [Option.bind_some, Option.map_some, mutex_bare, hg, if_neg, not_false_iff,
            Bool.false_eq_true]
          exact congrArg some (hstage rfl)
    | notifyOne c | notifyAll c => exact congrArg some (hstage rfl)
  | waking c g resume =>
    cases resume <;>
      simp only [World.begin, Bare.begin, stage_bare w t hs, hs, Stage.bare, Option.map_none]
  | _ => simp only [World.begin, Bare.begin, stage_bare w t hs, hs, Stage.bare, Option.map_none]

theorem bare_collect (hp : (w.thread t).stage.pending? = none) (hs : (w.thread t).stage.Plain) :
    (w.collect t).map (fun r => (r.1, r.2.bare)) = w.bare.collect t := by
  cases hst : (w.thread t).stage with
  | finished a =>
    have hc : (Stage.idle (V := V)).coming = (w.thread t).stage.coming := by
      rw [hst]
      rfl
    simp only [World.collect, Bare.collect, stage_bare w t hst, hst, Stage.bare, Option.map_some,
      bare_setStage w hc]
  | emitting | tagging =>
    rw [hst] at hs
    exact hs.elim
  | recording | refusing | waking =>
    rw [hst] at hp
    contradiction
  | _ =>
    simp only [World.collect, Bare.collect, stage_bare w t hst, hst, Stage.bare, Option.map_none]

theorem bare_rouse : (w.rouse t).map bare = w.bare.rouse t := by
  cases hs : (w.thread t).stage with
  | parked c g resume =>
    simp only [World.rouse, Bare.rouse, stage_bare w t hs, hs, Stage.bare, Option.map_some,
      bare_rouseAll, bare_setWaiters, waiters_bare]
  | waking c g resume =>
    cases resume <;>
      simp only [World.rouse, Bare.rouse, stage_bare w t hs, hs, Stage.bare, Option.map_none]
  | _ => simp only [World.rouse, Bare.rouse, stage_bare w t hs, hs, Stage.bare, Option.map_none]

/-- A thread that has no record to make goes on to a stage with no guard to come. -/
theorem bare_become (w₁ : World V R) (hp : (w.thread t).stage.pending? = none)
    (hw : w₁.thread t = w.thread t) {s : Stage V} (hc : s.coming = fun _ => []) :
    (w₁.setStage t s).bare = w₁.bare.setStage t s.bare :=
  bare_setStage w₁ (by rw [hc, hw, Stage.coming_of_pending hp])

section Advance

variable [Recorder R] {g : Guard} {c : CondvarId} (pick : List Waiter → Option Waiter)

theorem bare_acquiring {p : Patience} {slot : Slot}
    (hs : (w.thread t).stage = .acquiring p g slot) :
    (w.advance t pick).map bare = w.bare.advance t pick := by
  have hp : (w.thread t).stage.pending? = none := by rw [hs]; rfl
  have hbare : w.bare.mutex g.mutex = w.mutex g.mutex := rfl
  simp only [advance, Bare.advance, stage_bare w t hs, hs, Stage.bare]
  cases hh : (w.mutex g.mutex).holder with
  | some t' =>
    cases p with
    | waits => simp only [hbare, hh, Option.map_none]
    | tries =>
      simp only [hbare, hh, Option.map_some]
      exact congrArg some (bare_become w hp rfl rfl)
  | none =>
    simp only [hbare, hh, Option.map_some]
    refine congrArg some ?_
    by_cases hpoisoned : (w.mutex g.mutex).poisoned
    · simp only [hpoisoned, if_true, ← bare_take]
      exact bare_become (w.take t g.mutex) hp rfl rfl
    · simp only [hpoisoned, if_false, Bool.false_eq_true, ← bare_take]
      exact bare_recording (w.take t g.mutex) t (congrArg Stage.coming hs) g slot

theorem bare_parking {resume : Resume V} (hs : (w.thread t).stage = .parking c g resume) :
    (w.advance t pick).map bare = w.bare.advance t pick := by
  have hp : (w.thread t).stage.pending? = none := by rw [hs]; rfl
  simp only [advance, Bare.advance, stage_bare w t hs, hs, Stage.bare]
  refine congrArg some ?_
  rw [← bare_free, ← bare_setWaiters]
  by_cases hmixed : (w.waiters c).any (·.mutex ≠ g.mutex)
  · rw [if_pos hmixed, if_pos (show (w.bare.waiters c).any _ = true from hmixed)]
    exact bare_become w hp rfl rfl
  · rw [if_neg hmixed, if_neg (show ¬ (w.bare.waiters c).any _ = true from hmixed)]
    exact bare_become ((w.free g.mutex false).setWaiters c _) hp rfl rfl

theorem bare_rejoining {resume : Resume V} (hs : (w.thread t).stage = .rejoining c g resume) :
    (w.advance t pick).map bare = w.bare.advance t pick := by
  have hp : (w.thread t).stage.pending? = none := by rw [hs]; rfl
  simp only [advance, Bare.advance, stage_bare w t hs, hs, Stage.bare]
  by_cases hheld : (w.mutex g.mutex).holder.isSome
  · rw [if_pos hheld, if_pos (show (w.bare.mutex g.mutex).holder.isSome = true from hheld)]
    rfl
  · rw [if_neg hheld, if_neg (show ¬ (w.bare.mutex g.mutex).holder.isSome = true from hheld),
      ← bare_take]
    refine congrArg some ?_
    rcases resume with _ | ⟨condition, seen⟩
    all_goals exact bare_become (w.take t g.mutex) hp rfl rfl

theorem bare_notifying {all : Bool} (hs : (w.thread t).stage = .notifying c all) :
    (w.advance t pick).map bare = w.bare.advance t pick := by
  have hp : (w.thread t).stage.pending? = none := by rw [hs]; rfl
  have hbare : w.bare.waiters c = w.waiters c := rfl
  have rouses (ws xs : List Waiter) (a : Answer V) :
      (((w.setWaiters c ws).rouseAll xs).finish t a).bare =
        ((w.bare.setWaiters c ws).rouseAll xs).finish t a := by
    -- A thread that notifies others does not sleep, so that nothing wakes it.
    have hself : ((w.setWaiters c ws).rouseAll xs).thread t = w.thread t := by
      rcases thread_rouseAll (w.setWaiters c ws) xs t with hth | ⟨_, _, _, hparked, _⟩
      · exact hth
      · rw [show (w.setWaiters c ws).thread t = w.thread t from rfl, hs] at hparked
        contradiction
    rw [← bare_setWaiters, ← bare_rouseAll]
    exact bare_become ((w.setWaiters c ws).rouseAll xs) hp hself rfl
  simp only [advance, Bare.advance, stage_bare w t hs, hs, Stage.bare]
  cases all with
  | true => exact congrArg some (rouses ..)
  | false =>
    simp only [hbare]
    cases hw : w.waiters c with
    | nil => exact congrArg some (bare_become w hp rfl rfl)
    | cons x xs =>
      simp only
      cases pick (x :: xs) with
      | none => rfl
      | some y =>
        simp only
        split
        · exact congrArg some (rouses ..)
        · rfl

/-- What a thread does that makes no record is what it does without tracing. -/
theorem bare_advance (hp : (w.thread t).stage.pending? = none) (hs : (w.thread t).stage.Plain) :
    (w.advance t pick).map bare = w.bare.advance t pick := by
  cases hst : (w.thread t).stage with
  | idle | finished | parked =>
    simp only [advance, Bare.advance, stage_bare w t hst, hst, Stage.bare, Option.map_none]
  | emitting | tagging =>
    rw [hst] at hs
    exact hs.elim
  | attempting | recording | refusing | leaving | waiting | waking =>
    rw [hst] at hp
    contradiction
  | acquiring => exact bare_acquiring pick hst
  | yielding g e =>
    simp only [advance, Bare.advance, stage_bare w t hst, hst, Stage.bare]
    refine congrArg some ?_
    rw [← bare_free]
    exact bare_become (w.free g.mutex false) hp rfl rfl
  | parking => exact bare_parking pick hst
  | rejoining => exact bare_rejoining pick hst
  | notifying => exact bare_notifying pick hst
  | freeing how g r =>
    rw [hst] at hs
    obtain rfl : r = .ok () := hs
    simp only [advance, Bare.advance, stage_bare w t hst, hst, Stage.bare]
    refine congrArg some ?_
    rw [← bare_free]
    cases how
    all_goals exact bare_become (w.free g.mutex _) hp rfl rfl
  | accessing g change =>
    simp only [advance, Bare.advance, stage_bare w t hst, hst, Stage.bare]
    refine congrArg some ?_
    rw [← bare_setMutex]
    exact bare_become (w.setMutex g.mutex _) hp rfl rfl
  | judging c g condition seen =>
    have hbare : w.bare.mutex g.mutex = w.mutex g.mutex := rfl
    simp only [advance, Bare.advance, stage_bare w t hst, hst, Stage.bare]
    refine congrArg some ?_
    rw [hbare, ← bare_setMutex]
    rcases condition seen (w.mutex g.mutex).value with ⟨_ | _, v⟩
    all_goals exact bare_become (w.setMutex g.mutex _) hp rfl rfl

end Advance

theorem bare_keep {g : Guard} {slot : Slot} (hs : (w.thread t).stage = .recording g slot) :
    ((w.keep t g slot).finish t .ok).bare = w.bare := by
  have hth : Thread.bare { (w.keep t g slot).thread t with stage := .finished .ok } =
      (w.thread t).bare := by
    rw [keep, thread_setGuards_self, Thread.bare, Thread.bare, hs]
    refine congrArg (Bare.Thread.mk _) (funext fun slot' => ?_)
    rw [Table.get_set]
    by_cases he : slot = slot'
    · subst he
      simp [Stage.coming, guards]
    · simp [Stage.coming, he]
  rw [finish, setStage, bare_setThread, hth, keep, setGuards, bare_setThread, Bare.setThread,
    Bare.setThread, Function.update_idem]
  exact congrArg (Bare.mk w.mutex w.waiters) (Function.update_eq_self t w.bare.thread)

/-- Nothing is left of a record that was made. -/
theorem bare_resume {e : EmitterId} {k : Kind} {name : LockName}
    (hp : (w.thread t).stage.pending? = some (e, k, name)) (hs : (w.thread t).stage.Plain) :
    (w.resume t (.ok ())).bare = w.bare := by
  have same {s : Stage V} (hc : s.coming = (w.thread t).stage.coming)
      (hb : s.bare = (w.thread t).stage.bare) : (w.setStage t s).bare = w.bare := by
    rw [bare_setStage w hc, hb]
    exact congrArg (Bare.mk w.mutex w.waiters) (Function.update_eq_self t w.bare.thread)
  cases hst : (w.thread t).stage
  all_goals
    rw [hst] at hp hs same
    simp only [resume, hst]
  case attempting | refusing | leaving | waiting => exact same rfl rfl
  case waking resume => cases resume <;> exact same rfl rfl
  case recording g slot => exact bare_keep hst
  case emitting => exact hs.elim

end World

end LockTrace
