import LockTrace.Check.Stream
import LockTrace.Event.Order
import LockTrace.Session.Basic

namespace LockTrace

open Session

/-- The name of the emitter that is there from the beginning. -/
def Session.processWide : String := "global"

/-- Threads, mutexes, condition variables and emitters under names, run by a scheduler that serves
sleepers in the order in which they fell asleep. -/
structure Session where
  world : World Int64 Desk := { mutexes := ⟨{ value := 0 }, []⟩, recorder := {} }
  emitters : Registry := ⟨[(Session.processWide, 0)]⟩
  mutexes : Registry := {}
  condvars : Registry := {}
  threads : Registry := {}
  slots : Registry := {}
  asleep : List ThreadId := []
  history : List (String × List UInt8) := []

namespace Session

/-- The emitter of this name. That of the whole process can be replaced by no other. -/
def emitter (s : Session) (name : String) : Except Refusal EmitterId :=
  if name = processWide then .ok 0 else (s.emitters.find? name).elim (.error .noEmitter) .ok

def mutex (s : Session) (name : String) : Except Refusal MutexId :=
  (s.mutexes.find? name).elim (.error .noLock) .ok

def condvar (s : Session) (name : String) : Except Refusal CondvarId :=
  (s.condvars.find? name).elim (.error .noCondvar) .ok

/-- More moves than a thread can make without sleeping or finishing: the longest way leads from a
wake-up through a record, a test and another record back to sleep. -/
def stride : Nat := 16

/-- A thread goes on until it finishes its call or has to wait. -/
def runThread : Nat → World Int64 Desk → ThreadId → World Int64 Desk
  | 0, w, _ => w
  | fuel + 1, w, t =>
    match w.advance t List.head? with
    | none => w
    | some w => runThread fuel w t

def isParked (w : World Int64 Desk) (t : ThreadId) : Bool :=
  match (w.thread t).stage with
  | .parked .. => true
  | _ => false

def canMove (w : World Int64 Desk) (t : ThreadId) : Bool := (w.advance t List.head?).isSome

/-- A thread goes on as far as it can. If it does not finish it goes to sleep behind all others;
sleepers that it called queue up again too, in their order. -/
def proceed (s : Session) (t : ThreadId) : Option (Answer Int64) × Session :=
  let w := runThread stride s.world t
  let called := s.asleep.filter fun x => isParked s.world x && !isParked w x
  let others := s.asleep.filter fun x => x ∉ called ∧ x ≠ t
  match w.collect t with
  | some (a, w) => (some a, { s with world := w, asleep := others ++ called })
  | none => (none, { s with world := w, asleep := others ++ called ++ [t] })

/-- Sleepers that can go on do so, the longest asleep first. -/
def serve : Nat → Session → List (String × Reply) × Session
  | 0, s => ([], s)
  | fuel + 1, s =>
    match s.asleep.find? (canMove s.world) with
    | none => ([], s)
    | some t =>
      let (a, s) := s.proceed t
      let (woke, s) := serve fuel s
      (a.toList.map (fun a => (s.threads.nameOf t, .answer a)) ++ woke, s)

/-- The call that an instruction means, or why it means none. -/
def callOf (s : Session) (t : ThreadId) (slot : Slot) (op : Op) :
    Except Refusal (Call Int64) :=
  let held : Except Refusal Guard := (s.world.guard? t slot).elim (.error .noGuard) .ok
  let waitable : Except Refusal Unit := do
    if (s.world.mutex (← held).mutex).poisons then .error .notSupported else .ok ()
  match op with
  | .emit e k label => .ok (.emit e k label)
  | .lock p e m label _ => .ok (.lock p e m label slot)
  | .leave how _ => do let _ ← held; return .leave how slot
  | .get _ | .look _ => do let _ ← held; return .access slot id
  | .set _ n => do let _ ← held; return .access slot fun _ => n
  | .add _ n => do let _ ← held; return .access slot (· + n)
  | .wait c _ => do waitable; return .wait c slot
  | .waitWhile c _ add test bound => do
    waitable
    return .waitWhile c slot fun _ v => (test.holds (v + add) bound, v + add)
  | .notifyOne c => .ok (.notifyOne c)
  | .notifyAll c => .ok (.notifyAll c)
  | .tag => .ok .tag

/-- The name of the guard that an instruction is about. -/
def Op.guardName : Op → String
  | .lock _ _ _ _ g | .leave _ g | .get g | .set g _ | .add g _ | .look g | .wait _ g
  | .waitWhile _ g _ _ _ => g
  | .emit .. | .notifyOne _ | .notifyAll _ | .tag => ""

/-- A thread is told to do something. Unwinding without a guard is still a panic. -/
def instruct (s : Session) (name : String) (op : Op) : Report × Session :=
  let (t, threads) := s.threads.intern name
  let s := { s with threads }
  if t ∈ s.asleep then (⟨.refused .busy, [], [], []⟩, s)
  else
    let (slot, slots) := s.slots.intern op.guardName
    let s := { s with slots }
    match op, s.callOf t slot op with
    | .leave .unwound _, .error .noGuard => (⟨.answer (.panicked .unwinding), [], [], []⟩, s)
    | _, .error r => (⟨.refused r, [], [], []⟩, s)
    | op, .ok call =>
      match op, s.world.guard? t slot with
      | .look _, some g => (⟨.looked g, [], [], []⟩, s)
      | _, _ =>
        match s.world.begin t call with
        | none => (⟨.refused .notSupported, [], [], []⟩, s)
        | some w =>
          let (a, s) := ({ s with world := w }).proceed t
          let (woke, s) := serve (s.asleep.length + 1) s
          let reply := match a with
            | some a => .answer a
            | none => .blocked
          (⟨reply, woke.mergeSort fun a b => textLe a.1 b.1, [], []⟩, s)

/-- A mutex as an outsider finds it. -/
def inspect (mu : Mutex Int64) : Finding :=
  if mu.holder.isSome then .held
  else if mu.poisoned then .poisoned mu.value
  else .free mu.value

def addEmitter (s : Session) (name : String) (sink : Sink Labelled) : Session :=
  let (e, emitters) := s.emitters.declare name
  let (_, recorder) := s.world.recorder.replace e sink
  { s with emitters, world := { s.world with recorder } }

/-- One step, before what came of it is gathered. -/
def act (s : Session) : Step → Report × Session
  | .emitter name sink => (⟨.shown "Emitter \x7b .. \x7d", [], [], []⟩, s.addEmitter name sink)
  | .configured name setting =>
    let (target, notices) := Target.ofSetting setting
    (⟨.shown "Emitter \x7b .. \x7d", [], [], notices⟩, s.addEmitter name (.ofTarget target))
  | .replaceSink e sink =>
    let (old, recorder) := s.world.recorder.replace e sink
    (⟨.shown old.describe, [], [], []⟩, { s with world := { s.world with recorder } })
  | .mutex name poisons value =>
    let (m, mutexes) := s.mutexes.declare name
    (⟨.answer .ok, [], [], []⟩, { s with mutexes, world := s.world.setMutex m { value, poisons } })
  | .condvar name =>
    let (_, condvars) := s.condvars.declare name
    (⟨.shown "TracedCondvar \x7b .. \x7d", [], [], []⟩, { s with condvars })
  | .inspect m => (⟨.found (inspect (s.world.mutex m)), [], [], []⟩, s)
  | .thread name op => s.instruct name op

/-- What arrived at the named outlets. Bytes with no flush between them have arrived together. -/
def namedArrivals (d : Desk) : List (String × List Chunk) :=
  d.arrived.entries.filterMap fun (o, chunks) =>
    match o with
    | .named n => some (n, Chunk.join chunks.reverse)
    | _ => none

def contentOf (chunks : List Chunk) : List UInt8 :=
  chunks.flatMap fun
    | .bytes b => b
    | .flushed => []

/-- One step with all that came of it. What arrived goes into the history, and the outlets are
empty again for the next step. -/
def step (s : Session) (st : Step) : Report × Session :=
  let (r, s) := s.act st
  let arrived := namedArrivals s.world.recorder
  let notices := r.notices ++ s.world.notices
  let recorder := { s.world.recorder with arrived := ⟨[], []⟩ }
  let history := s.history ++ arrived.map fun (n, cs) => (n, contentOf cs)
  ({ r with arrived, notices },
    { s with history, world := { s.world with recorder, notices := [] } })

/-- The bytes that arrived under each name since the session began. -/
def streams (s : Session) : List (String × List UInt8) :=
  (s.history.map (·.1)).eraseDups.map fun n =>
    (n, (s.history.filter (·.1 = n)).flatMap (·.2))

/-- The threads that still wait, by name. -/
def blocked (s : Session) : List String := ascending textLe (s.asleep.map s.threads.nameOf)

end Session

end LockTrace
