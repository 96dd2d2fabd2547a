import LockTrace.Proofs.Sink.Work
import LockTrace.Proofs.Threads.Turn

namespace LockTrace

/-- Where a thread stands that holds the lock of a sink: it reads the clock, it asks for its tag, it
encodes its record, or it hands the record over. -/
inductive Task
  | time
  | tag (time : Millis)
  | encode (event : Event)
  | work (event : Event) (job : Job)

/-- The sink of an emitter, what has arrived there, the oldest first, and the thread that holds the
sink's lock. -/
structure Booth (W : Type) where
  sink : Sink W
  arrived : List Chunk := []
  inside : Option (ThreadId × Task) := none

namespace Booth

variable {W : Type} (b : Booth W)

/-- The thread inside gives the lock back. -/
def vacate : Booth W := { b with inside := none }

variable [Writer W] (t : ThreadId) (ev : Event) (j : Job)

/-- The thread inside makes the next call to the sink. -/
def work : Booth W :=
  ⟨(b.sink.work j).1, b.arrived ++ (b.sink.work j).2.1, some (t, .work ev (b.sink.work j).2.2)⟩

/-- The thread inside makes all calls that are left, and gives the lock back. -/
def close : Booth W := ⟨(b.sink.rest j).after, b.arrived ++ (b.sink.rest j).chunks, none⟩

theorem close_work : (b.work t ev j).close (b.sink.work j).2.2 = b.close j := by
  rw [close, close, Sink.rest_work b.sink j]
  simp [work]

theorem result_work :
    ((b.work t ev j).sink.rest (b.sink.work j).2.2).result = (b.sink.rest j).result := by
  rw [Sink.rest_work b.sink j]
  rfl

end Booth

/-- The emitters of a process, and the milliseconds that have gone by. -/
structure Hall (W : Type) where
  booths : Table EmitterId (Booth W)
  elapsed : Nat := 0

namespace Hall

variable {W : Type}

def booth (h : Hall W) (e : EmitterId) : Booth W := h.booths.get e

def setBooth (h : Hall W) (e : EmitterId) (b : Booth W) : Hall W :=
  { h with booths := h.booths.set e b }

/-- The time that a record gets. It stops where 64 bits end. -/
def now (h : Hall W) : Millis := ⟨UInt64.ofNat (min h.elapsed (UInt64.size - 1))⟩

/-- A record that is made without a break. -/
def record [Writer W] (h : Hall W) (e : EmitterId) (k : Kind) (tid : String) (lock : LockName) :
    Except TraceError Unit × Hall W :=
  let b := h.booth e
  let r := b.sink.put (Event.bytes ⟨k, h.now, tid, lock⟩)
  (r.result.mapError .sink,
    h.setBooth e { b with sink := r.after, arrived := b.arrived ++ r.chunks })

instance [Writer W] : Recorder (Hall W) := ⟨record⟩

@[simp] theorem booth_setBooth_self (h : Hall W) (e : EmitterId) (b : Booth W) :
    (h.setBooth e b).booth e = b := Table.get_set_self ..

end Hall

/-- The record that a stage is about to make, and the emitter that it goes through. -/
def Stage.pending? {V : Type} : Stage V → Option (EmitterId × Kind × LockName)
  | .emitting e k name => some (e, k, name)
  | s => s.utters.map fun (k, g) => (g.emitter, k, g.name)

namespace World

variable {V R : Type}

/-- The thread goes on after its record, by what that has come to. -/
def resume (w : World V R) (t : ThreadId) (r : Except TraceError Unit) : World V R :=
  match (w.thread t).stage, r with
  | .emitting .., r => w.finish t (.ofResult r)
  | .leaving how g, r => w.setStage t (.freeing how g r)
  | .recording g _, .error e => w.setStage t (.yielding g e)
  | .attempting .., .error e | .refusing _, .error e | .waiting .., .error e
  | .waking .., .error e => w.finish t (.failed e)
  | .attempting p g slot, .ok () => w.setStage t (.acquiring p g slot)
  | .recording g slot, .ok () => (w.keep t g slot).finish t .ok
  | .refusing _, .ok () => w.finish t .notHeld
  | .waiting c g next, .ok () => w.setStage t (.parking c g next)
  | .waking _ _ none, .ok () => w.finish t .ok
  | .waking c g (some (condition, seen)), .ok () => w.setStage t (.judging c g condition seen)
  | _, _ => w

theorem resume_emitting {w : World V R} {t : ThreadId} {e : EmitterId} {k : Kind} {name : LockName}
    (hs : (w.thread t).stage = .emitting e k name) (r : Except TraceError Unit) :
    w.resume t r = w.finish t (.ofResult r) := by
  simp only [resume, hs]

section Resume

variable {w : World V R} {t : ThreadId} {x : EmitterId × Kind × LockName}

/-- After its record a thread keeps a guard, or does not, and is at a stage that has no record to
make. -/
theorem exists_resume (hp : (w.thread t).stage.pending? = some x) (r : Except TraceError Unit) :
    ∃ w₁ s, (w₁ = w ∨ ∃ g slot, w₁ = w.keep t g slot) ∧ s.pending? = none ∧
      w.resume t r = w₁.setStage t s := by
  cases hs : (w.thread t).stage
  all_goals
    rw [hs] at hp
    cases hp
  case emitting => exact ⟨w, _, .inl rfl, rfl, resume_emitting hs r⟩
  case waking c g resume =>
    rcases r with _ | _ <;> rcases resume with _ | ⟨condition, seen⟩
    all_goals exact ⟨w, _, .inl rfl, rfl, by simp only [World.resume, hs]; rfl⟩
  all_goals
    rcases r with _ | _
  case recording.refl.ok g slot _ =>
    exact ⟨w.keep t g slot, _, .inr ⟨g, slot, rfl⟩, rfl, by simp only [resume, hs]; rfl⟩
  all_goals exact ⟨w, _, .inl rfl, rfl, by simp only [resume, hs]; rfl⟩

theorem pending?_resume (hp : (w.thread t).stage.pending? = some x) (r : Except TraceError Unit) :
    ((w.resume t r).thread t).stage.pending? = none := by
  obtain ⟨w₁, s, _, hs, he⟩ := exists_resume hp r
  rw [he, thread_setStage_self]
  exact hs

theorem thread_resume_ne (hp : (w.thread t).stage.pending? = some x) {t' : ThreadId} (ht : t ≠ t')
    (r : Except TraceError Unit) : (w.resume t r).thread t' = w.thread t' := by
  obtain ⟨w₁, s, hw, _, he⟩ := exists_resume hp r
  rw [he, thread_setStage_ne _ ht]
  rcases hw with rfl | ⟨g, slot, rfl⟩
  · rfl
  · exact thread_setGuards_ne w ht slot _

theorem recorder_resume (hp : (w.thread t).stage.pending? = some x)
    (r : Except TraceError Unit) : (w.resume t r).recorder = w.recorder := by
  obtain ⟨w₁, s, hw, _, he⟩ := exists_resume hp r
  rw [he]
  rcases hw with rfl | ⟨g, slot, rfl⟩ <;> rfl

end Resume

theorem stage_tagOf (w : World V R) (t : ThreadId) :
    ((w.tagOf t).2.thread t).stage = (w.thread t).stage := by
  obtain ⟨n, _, hn⟩ := exists_thread_tagOf w t
  rw [hn]

/-- A thread that is about to make a record makes it, and goes on. -/
theorem advance_of_pending [Recorder R] {w : World V R} {t : ThreadId} {e : EmitterId} {k : Kind}
    {name : LockName} (hp : (w.thread t).stage.pending? = some (e, k, name))
    (pick : List Waiter → Option Waiter) : w.advance t pick =
      some ((w.emit t e k name).2.resume t (w.emit t e k name).1) := by
  have hs : ((w.emit t e k name).2.thread t).stage = (w.thread t).stage := stage_tagOf w t
  cases hst : (w.thread t).stage
  all_goals
    rw [hst] at hp
    cases hp
  all_goals
    rw [hst] at hs
    simp only [advance, hst, resume, hs]
  case waking resume =>
    rcases w.emit t _ _ _ with ⟨_ | _, w₁⟩
    · rfl
    · cases resume <;> rfl
  all_goals
    rcases w.emit t _ _ _ with ⟨_ | _, w₁⟩ <;> rfl

section Booth

variable {W : Type} (w : World V (Hall W)) (t : ThreadId) (e : EmitterId) (b : Booth W)

def booth : Booth W := w.recorder.booth e

def setBooth : World V (Hall W) := { w with recorder := w.recorder.setBooth e b }

/-- The thread in the sink of an emitter goes on to its next task. -/
def seat (task : Task) : World V (Hall W) :=
  w.setBooth e { w.booth e with inside := some (t, task) }

/-- The lock of the sink of an emitter is given back. -/
def vacate : World V (Hall W) := w.setBooth e (w.booth e).vacate

@[simp] theorem thread_setBooth (t : ThreadId) : (w.setBooth e b).thread t = w.thread t := rfl

@[simp] theorem booth_setBooth_self : (w.setBooth e b).booth e = b :=
  Hall.booth_setBooth_self ..

theorem booth_setBooth (e' : EmitterId) :
    (w.setBooth e b).booth e' = if e = e' then b else w.booth e' := Table.get_set ..

@[simp] theorem setBooth_setBooth (b' : Booth W) :
    (w.setBooth e b).setBooth e b' = w.setBooth e b' := by
  simp only [setBooth, Hall.setBooth, Table.set_set]

theorem tagOf_setBooth :
    (w.setBooth e b).tagOf t = ((w.tagOf t).1, (w.tagOf t).2.setBooth e b) := by
  cases h : (w.thread t).tag with
  | some n => rw [tagOf_some w h, tagOf_some (w.setBooth e b) h]
  | none =>
    rw [tagOf_none w h, tagOf_none (w.setBooth e b) h]
    rfl

@[simp] theorem booth_tagOf : (w.tagOf t).2.booth e = w.booth e := by
  rw [booth, recorder_tagOf]
  rfl

end Booth

/-- One step of an emission: a thread takes the lock of the sink if nobody holds it, and then does
one thing after the other. -/
inductive Part {W : Type} [Writer W] (w : World V (Hall W)) (t : ThreadId) (e : EmitterId)
    (k : Kind) (name : LockName) : World V (Hall W) → Prop
  | enter (hb : (w.booth e).inside = none) : Part w t e k name (w.seat t e .time)
  | time (hb : (w.booth e).inside = some (t, .time)) :
      Part w t e k name (w.seat t e (.tag w.recorder.now))
  | tag {time : Millis} (hb : (w.booth e).inside = some (t, .tag time)) :
      Part w t e k name ((w.tagOf t).2.seat t e (.encode ⟨k, time, (w.tagOf t).1, name⟩))
  | encode {ev : Event} (hb : (w.booth e).inside = some (t, .encode ev)) :
      Part w t e k name (w.seat t e (.work ev (.write ev.bytes)))
  | work {ev : Event} {j : Job} (hb : (w.booth e).inside = some (t, .work ev j))
      (hj : ∀ r, j ≠ .done r) :
      Part w t e k name (w.setBooth e ((w.booth e).work t ev j))

end World

/-- What happens in a system of threads. The steps of an emission are `part`s up to the last one,
which gives the lock of the sink back and ends the `record`. -/
inductive Label (V : Type)
  | begin (t : ThreadId) (call : Call V)
  | collect (t : ThreadId) (a : Answer V)
  | act (t : ThreadId)
  | rouse (t : ThreadId)
  | part (t : ThreadId)
  | record (t : ThreadId) (k : Kind) (name : LockName)
  | tick

namespace Label

variable {V : Type}

/-- The call that begins. -/
def begun? : Label V → Option (ThreadId × Call V)
  | .begin t call => some (t, call)
  | _ => none

/-- The record that is completed. -/
def record? : Label V → Option (ThreadId × Kind × LockName)
  | .record t k name => some (t, k, name)
  | _ => none

/-- The answer that a thread gets. -/
def answer? (t : ThreadId) : Label V → Option (Answer V)
  | .collect t' a => if t' = t then some a else none
  | _ => none

/-- The step belongs to an emission, or only the clock goes on. -/
def Silent : Label V → Prop
  | .part _ | .record .. | .tick => True
  | _ => False

end Label

/-- The steps that a system does one after the other. -/
inductive Trail {V S : Type} (move : S → Label V → S → Prop) : S → List (Label V) → S → Prop
  | nil (s : S) : Trail move s [] s
  | cons {s s' s'' : S} {l : Label V} {ls : List (Label V)} (hm : move s l s')
      (h : Trail move s' ls s'') : Trail move s (l :: ls) s''

theorem Trail.append {V S : Type} {move : S → Label V → S → Prop} {s s' s'' : S}
    {ls ls' : List (Label V)} (h : Trail move s ls s') (h' : Trail move s' ls' s'') :
    Trail move s (ls ++ ls') s'' := by
  induction h with
  | nil => exact h'
  | cons hm _ ih => exact .cons hm (ih h')

namespace World

variable {V W : Type} [Writer W] {w : World V (Hall W)} {t : ThreadId} {e : EmitterId} {k : Kind}
  {name : LockName}

/-- One step of one thread, whatever it asks for and whomever it picks, where an emission takes as
many steps as it has parts. The clock may go on at any time. -/
inductive Stir (w : World V (Hall W)) : Label V → World V (Hall W) → Prop
  | begin {t : ThreadId} {call : Call V} {w' : World V (Hall W)}
      (h : w.begin t call = some w') : Stir w (.begin t call) w'
  | collect {t : ThreadId} {a : Answer V} {w' : World V (Hall W)}
      (h : w.collect t = some (a, w')) : Stir w (.collect t a) w'
  | act {t : ThreadId} {w' : World V (Hall W)} (pick : List Waiter → Option Waiter)
      (hp : (w.thread t).stage.pending? = none) (h : w.advance t pick = some w') :
      Stir w (.act t) w'
  | rouse {t : ThreadId} {w' : World V (Hall W)} (h : w.rouse t = some w') : Stir w (.rouse t) w'
  | part {t : ThreadId} {e : EmitterId} {k : Kind} {name : LockName} {w' : World V (Hall W)}
      (hp : (w.thread t).stage.pending? = some (e, k, name)) (h : w.Part t e k name w') :
      Stir w (.part t) w'
  | record {t : ThreadId} {e : EmitterId} {k : Kind} {name : LockName} {ev : Event}
      {r : Except IoError Unit} (hp : (w.thread t).stage.pending? = some (e, k, name))
      (hb : (w.booth e).inside = some (t, .work ev (.done r))) :
      Stir w (.record t k name)
        ((w.vacate e).resume t (r.mapError .sink))
  | tick {n : Nat} (hn : w.recorder.elapsed ≤ n) :
      Stir w .tick { w with recorder := { w.recorder with elapsed := n } }

section Uninterrupted

/-- The thread makes the calls that are left to be made, and goes on. -/
def settle (w : World V (Hall W)) (t : ThreadId) (e : EmitterId) (j : Job) : World V (Hall W) :=
  (w.setBooth e ((w.booth e).close j)).resume t (((w.booth e).sink.rest j).result.mapError .sink)

/-- One world leads to another by nothing but steps of emissions, and of the clock. -/
def Reaches (w w' : World V (Hall W)) : Prop :=
  ∃ ls, (∀ l ∈ ls, l.Silent) ∧ Trail Stir w ls w'

theorem Reaches.refl (w : World V (Hall W)) : w.Reaches w := ⟨[], by simp, .nil w⟩

theorem Reaches.head {w w' w'' : World V (Hall W)} {l : Label V} (hm : w.Stir l w')
    (hl : l.Silent) (h : w'.Reaches w'') : w.Reaches w'' := by
  obtain ⟨ls, hs, ht⟩ := h
  exact ⟨l :: ls, List.forall_mem_cons.mpr ⟨hl, hs⟩, .cons hm ht⟩

theorem reaches_settle (hp : (w.thread t).stage.pending? = some (e, k, name)) {ev : Event}
    {j : Job} (hb : (w.booth e).inside = some (t, .work ev j)) : w.Reaches (w.settle t e j) := by
  induction hn : j.size using Nat.strongRecOn generalizing w j with
  | ind n ih =>
    by_cases hj : ∃ r, j = .done r
    · obtain ⟨r, rfl⟩ := hj
      have hm := Stir.record hp hb
      have hw : w.settle t e (.done r) =
          (w.vacate e).resume t (r.mapError .sink) := by
        simp [settle, vacate, Booth.close, Booth.vacate, Sink.rest]
      rw [hw]
      exact (Reaches.refl _).head hm trivial
    · have hj : ∀ r, j ≠ .done r := fun r h => hj ⟨r, h⟩
      have hm := Stir.part hp (.work hb hj)
      have ih := ih _ (hn ▸ Sink.size_work hj) (w := w.setBooth e ((w.booth e).work t ev j)) hp
        (by rw [booth_setBooth_self]; rfl) rfl
      rw [settle, booth_setBooth_self, setBooth_setBooth, Booth.close_work, Booth.result_work] at ih
      exact ih.head hm trivial

@[simp] theorem settle_seat (w : World V (Hall W)) (task : Task) (j : Job) :
    (w.seat t e task).settle t e j = w.settle t e j := by
  rw [settle, seat, booth_setBooth_self, setBooth_setBooth]
  rfl

theorem reaches_encode (hp : (w.thread t).stage.pending? = some (e, k, name)) {ev : Event}
    (hb : (w.booth e).inside = some (t, .encode ev)) :
    w.Reaches (w.settle t e (.write ev.bytes)) := by
  have hw := reaches_settle (w := w.seat t e (.work ev (.write ev.bytes))) hp
    (by rw [seat, booth_setBooth_self])
  rw [settle_seat] at hw
  exact hw.head (.part hp (.encode hb)) trivial

theorem reaches_tag (hp : (w.thread t).stage.pending? = some (e, k, name)) {time : Millis}
    (hb : (w.booth e).inside = some (t, .tag time)) : w.Reaches ((w.tagOf t).2.settle t e
      (.write (Event.bytes ⟨k, time, (w.tagOf t).1, name⟩))) := by
  have hw := reaches_encode (w := (w.tagOf t).2.seat t e (.encode ⟨k, time, (w.tagOf t).1, name⟩))
    (by rw [seat, thread_setBooth, stage_tagOf, hp]) (by rw [seat, booth_setBooth_self])
  rw [settle_seat] at hw
  exact hw.head (.part hp (.tag hb)) trivial

omit [Writer W] in
theorem tagOf_seat (w : World V (Hall W)) (task : Task) :
    (w.seat t e task).tagOf t = ((w.tagOf t).1, (w.tagOf t).2.seat t e task) := by
  rw [seat, tagOf_setBooth, seat, booth_tagOf]

theorem reaches_time (hp : (w.thread t).stage.pending? = some (e, k, name))
    (hb : (w.booth e).inside = some (t, .time)) : w.Reaches ((w.tagOf t).2.settle t e
      (.write (Event.bytes ⟨k, w.recorder.now, (w.tagOf t).1, name⟩))) := by
  have hw := reaches_tag (w := w.seat t e (.tag w.recorder.now)) hp
    (by rw [seat, booth_setBooth_self])
  rw [tagOf_seat, settle_seat] at hw
  exact hw.head (.part hp (.time hb)) trivial

theorem reaches_enter (hp : (w.thread t).stage.pending? = some (e, k, name))
    (hb : (w.booth e).inside = none) : w.Reaches ((w.tagOf t).2.settle t e
      (.write (Event.bytes ⟨k, w.recorder.now, (w.tagOf t).1, name⟩))) := by
  have hw := reaches_time (w := w.seat t e .time) hp (by rw [seat, booth_setBooth_self])
  rw [tagOf_seat, settle_seat] at hw
  exact hw.head (.part hp (.enter hb)) trivial

/-- A record that nobody interrupts is made as if in one step. -/
theorem reaches_advance (hp : (w.thread t).stage.pending? = some (e, k, name))
    (hb : (w.booth e).inside = none) {pick : List Waiter → Option Waiter} {w' : World V (Hall W)}
    (ha : w.advance t pick = some w') : w.Reaches w' := by
  have hemit : (w.emit t e k name).2.resume t (w.emit t e k name).1 = (w.tagOf t).2.settle t e
      (.write (Event.bytes ⟨k, w.recorder.now, (w.tagOf t).1, name⟩)) := by
    have hclose (j : Job) : (w.booth e).close j =
        { w.booth e with
          sink := ((w.booth e).sink.rest j).after
          arrived := (w.booth e).arrived ++ ((w.booth e).sink.rest j).chunks } := by
      rw [Booth.close, ← hb]
    rw [settle, booth_tagOf, hclose]
    simp only [emit, Recorder.record, Hall.record, setBooth, recorder_tagOf]
    rfl
  rw [advance_of_pending hp, Option.some_inj] at ha
  rw [← ha, hemit]
  exact reaches_enter hp hb

end Uninterrupted

/-- A process whose only emitter writes to the standard output. -/
def lobby : World Unit (Hall Faulty) :=
  { mutexes := ⟨{ value := () }, []⟩, recorder := { booths := ⟨{ sink := .stdout }, []⟩ } }

end World

end LockTrace
