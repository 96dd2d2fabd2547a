import LockTrace.Threads.World

namespace LockTrace.World

variable {V R : Type}

/-- The first stage of a call. A call that cannot be made has none: its slot is empty, or the
guard belongs to a mutex that condition variables do not work with. -/
def opening (w : World V R) (t : ThreadId) : Call V → Option (Stage V)
  | .emit e k label =>
    some <| match LockName.ofString? label with
    | none => .finished (.failed .invalidLabel)
    | some name => .emitting e k name
  | .lock p e m label slot =>
    some <| match LockName.ofString? label with
    | none => .finished (.failed .invalidLabel)
    | some name => .attempting p ⟨m, name, e⟩ slot
  | .leave how slot => (w.guard? t slot).map (.leaving how)
  | .access slot change => (w.guard? t slot).map (.accessing · change)
  | .wait c slot => (w.guard? t slot).bind fun g =>
    if (w.mutex g.mutex).poisons then none else some (.waiting c g none)
  | .waitWhile c slot condition => (w.guard? t slot).bind fun g =>
    if (w.mutex g.mutex).poisons then none else some (.judging c g condition [])
  | .notifyOne c => some (.notifying c false)
  | .notifyAll c => some (.notifying c true)
  | .tag => some .tagging

/-- An idle thread begins a call. A guard that is to end leaves its slot at once, so that it can
end only once. -/
def begin (w : World V R) (t : ThreadId) (call : Call V) : Option (World V R) :=
  match (w.thread t).stage with
  | .idle =>
    (w.opening t call).map fun stage =>
      match call with
      | .leave _ slot => (w.setGuards t slot (w.guards t slot).tail).setStage t stage
      | _ => w.setStage t stage
  | _ => none

/-- A thread puts a guard into a slot, behind those that are there. -/
def keep (w : World V R) (t : ThreadId) (g : Guard) (slot : Slot) : World V R :=
  w.setGuards t slot (w.guards t slot ++ [g])

/-- The end of a guard's last call: only an explicit release reports a lost record, otherwise a
notice speaks of it. -/
def closing (w : World V R) (t : ThreadId) (how : Leave) (g : Guard)
    (result : Except TraceError Unit) : World V R :=
  match how with
  | .released => w.finish t (.ofResult result)
  | .dropped | .unwound =>
    let w := match result with
      | .ok () => w
      | .error e => w.note (unrecorded g.name e)
    w.finish t (if how = .unwound then .panicked .unwinding else .ok)

/-- Wakes sleepers: each has to get its mutex back before it goes on. -/
def rouseAll (w : World V R) : List Waiter → World V R
  | [] => w
  | x :: xs =>
    let w := match (w.thread x.thread).stage with
      | .parked c g resume => w.setStage x.thread (.rejoining c g resume)
      | _ => w
    w.rouseAll xs

/-- A sleeper wakes, called or not. -/
def rouse (w : World V R) (t : ThreadId) : Option (World V R) :=
  match (w.thread t).stage with
  | .parked c _ _ =>
    some ((w.setWaiters c ((w.waiters c).filter (·.thread ≠ t))).rouseAll
      ((w.waiters c).filter (·.thread = t)))
  | _ => none

/-- The thread does the one thing that its stage names, unless it has to wait for that. Of the
sleepers on a condition variable `pick` chooses the one that a single notice wakes. -/
def advance [Recorder R] (w : World V R) (t : ThreadId) (pick : List Waiter → Option Waiter) :
    Option (World V R) :=
  match (w.thread t).stage with
  | .idle | .finished _ | .parked .. => none
  | .emitting e k name =>
    let (result, w) := w.emit t e k name
    some (w.finish t (.ofResult result))
  | .attempting p g slot =>
    some <| match w.emit t g.emitter .attempt g.name with
    | (.error e, w) => w.finish t (.failed e)
    | (.ok (), w) => w.setStage t (.acquiring p g slot)
  | .acquiring p g slot =>
    let mu := w.mutex g.mutex
    match mu.holder, p with
    | some _, .waits => none
    | some _, .tries => some (w.setStage t (.refusing g))
    | none, _ =>
      -- a poisoned mutex is handed out all the same, with the report that it is
      some <| (w.take t g.mutex).setStage t <|
        if mu.poisoned then .yielding g (.poisoned g.name) else .recording g slot
  | .recording g slot =>
    some <| match w.emit t g.emitter .acquired g.name with
    | (.error e, w) => w.setStage t (.yielding g e)
    | (.ok (), w) => (w.keep t g slot).finish t .ok
  | .yielding g e => some ((w.free g.mutex false).finish t (.failed e))
  | .refusing g =>
    some <| match w.emit t g.emitter .tryFailed g.name with
    | (.error e, w) => w.finish t (.failed e)
    | (.ok (), w) => w.finish t .notHeld
  | .leaving how g =>
    let (result, w) := w.emit t g.emitter .released g.name
    some (w.setStage t (.freeing how g result))
  | .freeing how g result => some ((w.free g.mutex (how = .unwound)).closing t how g result)
  | .accessing g change =>
    let mu := w.mutex g.mutex
    let v := change mu.value
    some ((w.setMutex g.mutex { mu with value := v }).finish t (.value v))
  | .judging c g condition seen =>
    let mu := w.mutex g.mutex
    let (again, v) := condition seen mu.value
    let w := w.setMutex g.mutex { mu with value := v }
    some <| if again then w.setStage t (.waiting c g (some (condition, seen ++ [mu.value])))
      else w.finish t .ok
  | .waiting c g resume =>
    some <| match w.emit t g.emitter .wait g.name with
    | (.error e, w) => w.finish t (.failed e)
    | (.ok (), w) => w.setStage t (.parking c g resume)
  | .parking c g resume =>
    some <| if (w.waiters c).any (·.mutex ≠ g.mutex) then w.finish t (.panicked .mixedMutexes)
      else ((w.free g.mutex false).setWaiters c (w.waiters c ++ [⟨t, g.mutex⟩])).setStage t
        (.parked c g resume)
  | .rejoining c g resume =>
    if (w.mutex g.mutex).holder.isSome then none
    else some ((w.take t g.mutex).setStage t (.waking c g resume))
  | .waking c g resume =>
    some <| match w.emit t g.emitter .woken g.name with
    | (.error e, w) => w.finish t (.failed e)
    | (.ok (), w) =>
      match resume with
      | none => w.finish t .ok
      | some (condition, seen) => w.setStage t (.judging c g condition seen)
  | .notifying c true =>
    let sleepers := w.waiters c
    some (((w.setWaiters c []).rouseAll sleepers).finish t (.count sleepers.length))
  | .notifying c false =>
    match w.waiters c with
    | [] => some (w.finish t (.flag false))
    | sleepers =>
      match pick sleepers with
      | none => none
      | some x =>
        if x ∈ sleepers then
          some (((w.setWaiters c (sleepers.erase x)).rouseAll [x]).finish t (.flag true))
        else none
  | .tagging =>
    let (tid, w) := w.tagOf t
    some (w.finish t (.tag tid))

/-- A finished thread hands over its answer and is idle again. -/
def collect (w : World V R) (t : ThreadId) : Option (Answer V × World V R) :=
  match (w.thread t).stage with
  | .finished a => some (a, w.setStage t .idle)
  | _ => none

/-- One move of one thread, whatever it asks for and whomever it picks. Sleepers may wake without
being called. -/
inductive Move [Recorder R] : World V R → World V R → Prop
  | begin {w w' : World V R} (t : ThreadId) (call : Call V) (h : w.begin t call = some w') :
      Move w w'
  | advance {w w' : World V R} (t : ThreadId) (pick : List Waiter → Option Waiter)
      (h : w.advance t pick = some w') : Move w w'
  | rouse {w w' : World V R} (t : ThreadId) (h : w.rouse t = some w') : Move w w'
  | collect {w w' : World V R} (t : ThreadId) (a : Answer V) (h : w.collect t = some (a, w')) :
      Move w w'

end LockTrace.World
