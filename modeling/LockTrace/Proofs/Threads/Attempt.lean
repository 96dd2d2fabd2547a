import LockTrace.Proofs.Sink.Whole
import LockTrace.Proofs.Threads.Handling
import LockTrace.Proofs.Threads.Release

namespace LockTrace

variable {V R : Type}

/-- What a thread that kept these guards before an acquisition keeps at this stage of it. -/
def Stage.stock (g : Guard) (slot : Slot) (guards : Table Slot (List Guard)) :
    Stage V → Table Slot (List Guard)
  | .finished .ok => guards.set slot (guards.get slot ++ [g])
  | _ => guards

/-- What is seen of the records of an emitter: each that is taken, behind those before it, and
nothing of one that is refused. -/
def Seen [Recorder R] (e : EmitterId) (seen : R → List Event → Prop) : Prop :=
  ∀ r es k tid lock, seen r es → ∃ time, seen (Recorder.record r e k tid lock).2
    (if (Recorder.record r e k tid lock).1.isOk then es ++ [⟨k, time, tid, lock⟩] else es)

/-- So it is where the records arrive whole or not at all. -/
theorem Desk.seen_collects (e : EmitterId) (o : Outlet) :
    Seen e fun (d : Desk) es => d.Collects e o es := by
  intro d es k tid lock h
  exact ⟨d.clock, h.record k tid lock⟩

/-- By its own move the thread changes neither what a mutex protects nor whether it is poisoned, and
of its records those can be seen that were taken. -/
structure Moment.Careful [Recorder R] (t : ThreadId) (e : EmitterId) (x : Moment V R) : Prop where
  value : ∀ m, (x.after.mutex m).value = (x.before.mutex m).value
  poisoned : ∀ m, (x.after.mutex m).poisoned = (x.before.mutex m).poisoned
  shown : ∀ seen, Seen e seen → ∀ es, seen x.before.recorder es → ∃ new,
    seen x.after.recorder (es ++ new) ∧ new.map (fun y => (y.kind, y.lock)) =
      ((x.tells t).toList.filter (·.result.isOk)).map fun y => (y.kind, y.guard.name)

/-- Where an acquisition stands, with the records that it has tried to make and what it has in hand
of the mutex. It is with a mutex that was handed out poisoned that no further record is tried. -/
inductive Pursuit (p : Patience) (g : Guard) (slot : Slot) :
    Stage V → List Telling → Hand V → Prop
  | attempting : Pursuit p g slot (.attempting p g slot) [] .empty
  | unattempted (e : TraceError) :
      Pursuit p g slot (.finished (.failed e)) [⟨.attempt, g, .error e⟩] .empty
  | acquiring : Pursuit p g slot (.acquiring p g slot) [⟨.attempt, g, .ok ()⟩] .empty
  | refusing (hp : p = .tries) : Pursuit p g slot (.refusing g) [⟨.attempt, g, .ok ()⟩] .empty
  | refused (hp : p = .tries) : Pursuit p g slot (.finished .notHeld)
      [⟨.attempt, g, .ok ()⟩, ⟨.tryFailed, g, .ok ()⟩] .empty
  | unrefused (e : TraceError) : Pursuit p g slot (.finished (.failed e))
      [⟨.attempt, g, .ok ()⟩, ⟨.tryFailed, g, .error e⟩] .empty
  | spurning {found : Mutex V} (hf : found.poisoned = true) :
      Pursuit p g slot (.yielding g (.poisoned g.name)) [⟨.attempt, g, .ok ()⟩] (.full found)
  | spurned {found : Mutex V} (hf : found.poisoned = true) :
      Pursuit p g slot (.finished (.failed (.poisoned g.name))) [⟨.attempt, g, .ok ()⟩]
        (.emptied found)
  | recording {found : Mutex V} (hf : found.poisoned = false) :
      Pursuit p g slot (.recording g slot) [⟨.attempt, g, .ok ()⟩] (.full found)
  | obtained {found : Mutex V} (hf : found.poisoned = false) : Pursuit p g slot (.finished .ok)
      [⟨.attempt, g, .ok ()⟩, ⟨.acquired, g, .ok ()⟩] (.full found)
  | yielding (e : TraceError) {found : Mutex V} : Pursuit p g slot (.yielding g e)
      [⟨.attempt, g, .ok ()⟩, ⟨.acquired, g, .error e⟩] (.full found)
  | yielded (e : TraceError) {found : Mutex V} : Pursuit p g slot (.finished (.failed e))
      [⟨.attempt, g, .ok ()⟩, ⟨.acquired, g, .error e⟩] (.emptied found)

theorem Pursuit.not_parked {p : Patience} {g : Guard} {slot : Slot} {s : Stage V}
    {ts : List Telling} {hand : Hand V} (h : Pursuit p g slot s ts hand) (c : CondvarId)
    (g' : Guard) (resume : Resume V) : s ≠ .parked c g' resume := by
  cases h <;> simp

namespace World

variable {w w' w₁ : World V R} {t : ThreadId} {p : Patience} {g : Guard} {slot : Slot}
  {xs : List (Moment V R)}

/-- Whoever takes a mutex changes nothing but its holder. -/
theorem mutex_take (w : World V R) (t : ThreadId) (m m' : MutexId) :
    ∃ holder, (w.take t m).mutex m' = { w.mutex m' with holder := holder } := by
  by_cases hm : m = m'
  · subst hm
    exact ⟨some t, by simp [take, mutex_setMutex]⟩
  · exact ⟨(w.mutex m').holder, by simp [take, mutex_setMutex, hm]⟩

/-- So does whoever lets it go without a panic. -/
theorem mutex_free (w : World V R) (m m' : MutexId) :
    ∃ holder, (w.free m false).mutex m' = { w.mutex m' with holder := holder } := by
  by_cases hm : m = m'
  · subst hm
    exact ⟨none, by simp [free, mutex_setMutex]⟩
  · exact ⟨(w.mutex m').holder, by simp [free, mutex_setMutex, hm]⟩

variable [Recorder R]

/-- The next move of the thread neither looks at a mutex nor changes one: it is the same whatever
the mutexes are. -/
def Blind (t : ThreadId) (w : World V R) : Prop := ∀ mutexes pick,
  { w with mutexes := mutexes }.advance t pick =
    (w.advance t pick).map fun w' => { w' with mutexes := mutexes }

theorem emit_withMutexes (w : World V R) (t : ThreadId) (e : EmitterId) (k : Kind)
    (name : LockName) (mutexes : Table MutexId (Mutex V)) :
    { w with mutexes := mutexes }.emit t e k name =
      ((w.emit t e k name).1, { (w.emit t e k name).2 with mutexes := mutexes }) := by
  cases hn : (w.thread t).tag with
  | none =>
    have hn' : (({ w with mutexes := mutexes } : World V R).thread t).tag = none := hn
    simp only [emit, tagOf_none _ hn, tagOf_none _ hn', setThread]
    rfl
  | some n =>
    have hn' : (({ w with mutexes := mutexes } : World V R).thread t).tag = some n := hn
    simp only [emit, tagOf_some _ hn, tagOf_some _ hn']

theorem blind_attempting (hs : (w.thread t).stage = .attempting p g slot) : w.Blind t := by
  intro mutexes pick
  have hs' : (({ w with mutexes := mutexes } : World V R).thread t).stage =
      .attempting p g slot := hs
  simp only [advance, hs, hs', emit_withMutexes]
  rcases w.emit t g.emitter .attempt g.name with ⟨_ | _, w₁⟩
  · rfl
  · rfl

/-- How far an acquisition has come that began in an earlier world. -/
structure Pursues (w : World V R) (t : ThreadId) (p : Patience) (g : Guard) (slot : Slot)
    (xs : List (Moment V R)) (w' : World V R) (hand : Hand V) : Prop where
  phase : Pursuit p g slot (w'.thread t).stage (told t xs) hand
  handling : Handling w t g.mutex hand xs w'
  elsewhere : ∀ m, m ≠ g.mutex → Handling w t m .empty xs w'
  guards : (w'.thread t).guards = (w'.thread t).stage.stock g slot (w.thread t).guards
  careful : ∀ x ∈ xs, x.own = true → x.Careful t g.emitter
  untouched : ⟨.attempt, g, .ok ()⟩ ∉ told t xs → ∀ x ∈ xs, x.own = true →
    x.before.Blind t ∧ x.after.mutexes = x.before.mutexes

theorem careful_of_emit {k : Kind} {r : Except TraceError Unit}
    (hu : (w.thread t).stage.utters = some (k, g)) (he : w.emit t g.emitter k g.name = (r, w₁))
    (hm : w'.mutexes = w₁.mutexes) (hr : w'.recorder = w₁.recorder) :
    (⟨true, w, w'⟩ : Moment V R).Careful t g.emitter := by
  have hmutex (m : MutexId) : w'.mutex m = w.mutex m := by
    rw [mutex, hm, ← mutex_emit w t g.emitter k g.name m, he]
    rfl
  refine ⟨fun m => by rw [hmutex m], fun m => by rw [hmutex m], ?_⟩
  intro seen hseen es hes
  have hrec := emit_eq w t g.emitter k g.name
  rw [he] at hrec
  obtain ⟨time, hnext⟩ := hseen w.recorder es k (w.tagOf t).1 g.name hes
  rw [← hrec] at hnext
  rw [tells_own hu he]
  cases r with
  | error err =>
    refine ⟨[], ?_, ?_⟩
    · simpa [hr, Except.isOk, Except.toBool] using hnext
    · simp [Except.isOk, Except.toBool]
  | ok =>
    refine ⟨[⟨k, time, (w.tagOf t).1, g.name⟩], ?_, ?_⟩
    · simpa [hr, Except.isOk, Except.toBool] using hnext
    · simp [Except.isOk, Except.toBool]

theorem careful_of_silent {e : EmitterId} (hu : (w.thread t).stage.utters = none)
    (hm : ∀ m, ∃ holder, w'.mutex m = { w.mutex m with holder := holder })
    (hr : w'.recorder = w.recorder) : (⟨true, w, w'⟩ : Moment V R).Careful t e := by
  refine ⟨?_, ?_, ?_⟩
  · intro m
    obtain ⟨holder, he⟩ := hm m
    rw [he]
  · intro m
    obtain ⟨holder, he⟩ := hm m
    rw [he]
  · intro seen _ es hes
    refine ⟨[], ?_, ?_⟩
    · simpa [hr] using hes
    · simp [tells_own_none hu]

namespace Pursues

variable {w₂ : World V R} {s : Stage V} {hand hand' : Hand V}

/-- An own move that leads to a new stage. -/
theorem become (h : Pursues w t p g slot xs w₁ hand)
    (hphase : Pursuit p g slot s (told t (xs ++ [⟨true, w₁, w₂.setStage t s⟩])) hand')
    (hhandling : Handling w t g.mutex hand' (xs ++ [⟨true, w₁, w₂.setStage t s⟩])
      (w₂.setStage t s))
    (hholder : ∀ m, m ≠ g.mutex → w₂.holder m = w₁.holder m)
    (hguards : (w₂.thread t).guards = s.stock g slot (w.thread t).guards)
    (hcareful : (⟨true, w₁, w₂.setStage t s⟩ : Moment V R).Careful t g.emitter)
    (huntouched : ⟨.attempt, g, .ok ()⟩ ∈ told t xs ∨
      w₁.Blind t ∧ w₂.mutexes = w₁.mutexes) :
    Pursues w t p g slot (xs ++ [⟨true, w₁, w₂.setStage t s⟩]) (w₂.setStage t s) hand' where
  phase := by
    rw [thread_setStage_self]
    exact hphase
  handling := hhandling
  elsewhere m hm := by
    refine .apart true (h.elsewhere m hm) ?_
    change w₂.holder m = some t ↔ _
    rw [hholder m hm]
  guards := by
    rw [thread_setStage_self]
    exact hguards
  careful := by
    exact List.forall_mem_append.mpr ⟨h.careful, List.forall_mem_singleton.mpr fun _ => hcareful⟩
  untouched hno := by
    have hbefore : ⟨.attempt, g, .ok ()⟩ ∉ told t xs := by
      intro hmem
      apply hno
      rw [told_concat]
      exact List.mem_append_left _ hmem
    refine List.forall_mem_append.mpr
      ⟨h.untouched hbefore, List.forall_mem_singleton.mpr fun _ => ?_⟩
    exact huntouched.resolve_left hbefore

/-- A record is tried, and the acquisition goes on with what it has in hand. -/
theorem utter (h : Pursues w t p g slot xs w₁ hand) {s₁ : Stage V}
    (hs : (w₁.thread t).stage = s₁) {k : Kind} {r : Except TraceError Unit}
    (hu : s₁.utters = some (k, g)) (he : w₁.emit t g.emitter k g.name = (r, w₂))
    (hphase : Pursuit p g slot s (told t xs ++ [⟨k, g, r⟩]) hand)
    (hstock : ∀ guards, s.stock g slot guards = s₁.stock g slot guards)
    (huntouched : ⟨.attempt, g, .ok ()⟩ ∈ told t xs ∨ w₁.Blind t) :
    Pursues w t p g slot (xs ++ [⟨true, w₁, w₂.setStage t s⟩]) (w₂.setStage t s) hand := by
  subst hs
  obtain ⟨-, hguards, hholder, -⟩ := uttered he
  have hmutexes : w₂.mutexes = w₁.mutexes := by
    obtain rfl : (w₁.emit t g.emitter k g.name).2 = w₂ := by rw [he]
    cases hn : (w₁.thread t).tag <;> simp [emit, tagOf, hn, setThread]
  apply h.become
  · rw [told_own hu he]
    exact hphase
  · refine h.handling.still true ?_
    rw [mutex_setStage, mutex, hmutexes]
    rfl
  · intro m _
    rw [hholder]
  · rw [hguards, h.guards, hstock]
  · exact careful_of_emit hu he rfl rfl
  · exact huntouched.imp_right fun hr => ⟨hr, hmutexes⟩

/-- What happens around the thread does not disturb the acquisition. -/
theorem beside (h : Pursues w t p g slot xs w₁ hand) (hw : Spared t w₁ w₂) :
    Pursues w t p g slot (xs ++ [⟨false, w₁, w₂⟩]) w₂ hand := by
  have hthread : w₂.thread t = w₁.thread t := eq_of_roused hw.thread h.phase.not_parked
  refine ⟨?_, h.handling.beside hw, fun m hm => (h.elsewhere m hm).beside hw, ?_, ?_, ?_⟩
  · rw [told_beside, hthread]
    exact h.phase
  · rw [hthread]
    exact h.guards
  · exact List.forall_mem_append.mpr ⟨h.careful, by simp⟩
  · intro hno
    rw [told_beside] at hno
    exact List.forall_mem_append.mpr ⟨h.untouched hno, by simp⟩

theorem own_attempting (h : Pursues w t p g slot xs w₁ .empty)
    (hs : (w₁.thread t).stage = .attempting p g slot) (ht : told t xs = [])
    (hw : w₁.Step t (.attempting p g slot) w₂) :
    ∃ hand', Pursues w t p g slot (xs ++ [⟨true, w₁, w₂⟩]) w₂ hand' := by
  refine ⟨.empty, ?_⟩
  cases hw with
  | attempted he =>
    apply h.utter hs rfl he
    · rw [ht]
      exact .acquiring
    · simp [Stage.stock]
    · exact .inr (blind_attempting hs)
  | unattempted he =>
    apply h.utter hs rfl he
    · rw [ht]
      exact .unattempted _
    · simp [Stage.stock]
    · exact .inr (blind_attempting hs)

theorem own_refusing (h : Pursues w t p g slot xs w₁ .empty) (hp : p = .tries)
    (hs : (w₁.thread t).stage = .refusing g) (ht : told t xs = [⟨.attempt, g, .ok ()⟩])
    (hw : w₁.Step t (.refusing g) w₂) :
    ∃ hand', Pursues w t p g slot (xs ++ [⟨true, w₁, w₂⟩]) w₂ hand' := by
  refine ⟨.empty, ?_⟩
  cases hw with
  | refused he =>
    apply h.utter hs rfl he
    · rw [ht]
      exact .refused hp
    · simp [Stage.stock]
    · simp [ht]
  | unrefused he =>
    apply h.utter hs rfl he
    · rw [ht]
      exact .unrefused _
    · simp [Stage.stock]
    · simp [ht]

/-- The mutex is handed out, and the thread goes on with it. -/
theorem take (h : Pursues w t p g slot xs w₁ .empty)
    (hs : (w₁.thread t).stage = .acquiring p g slot) (ht : told t xs = [⟨.attempt, g, .ok ()⟩])
    (hf : w₁.holder g.mutex = none)
    (hphase : Pursuit p g slot s [⟨.attempt, g, .ok ()⟩] (.full (w₁.mutex g.mutex)))
    (hstock : ∀ guards, s.stock g slot guards = guards) :
    Pursues w t p g slot (xs ++ [⟨true, w₁, (w₁.take t g.mutex).setStage t s⟩])
      ((w₁.take t g.mutex).setStage t s) (.full (w₁.mutex g.mutex)) := by
  have hutters : (w₁.thread t).stage.utters = none := by simp [hs, Stage.utters]
  have hguards := h.guards
  rw [hs] at hguards
  apply h.become
  · rw [told_own_none hutters, ht]
    exact hphase
  · refine h.handling.take hf ?_
    rw [mutex_setStage, World.take, mutex_setMutex, if_pos rfl]
  · intro m hm
    rw [holder_take, if_neg (Ne.symm hm)]
  · rw [hstock]
    exact hguards
  · exact careful_of_silent hutters (mutex_take w₁ t g.mutex) rfl
  · simp [ht]

theorem own_acquiring (h : Pursues w t p g slot xs w₁ .empty)
    (hs : (w₁.thread t).stage = .acquiring p g slot) (ht : told t xs = [⟨.attempt, g, .ok ()⟩])
    (hw : w₁.Step t (.acquiring p g slot) w₂) :
    ∃ hand', Pursues w t p g slot (xs ++ [⟨true, w₁, w₂⟩]) w₂ hand' := by
  cases hw with
  | occupied hf =>
    have hutters : (w₁.thread t).stage.utters = none := by simp [hs, Stage.utters]
    have hguards := h.guards
    rw [hs] at hguards
    refine ⟨.empty, h.become ?_ (h.handling.still true rfl) (fun _ _ => rfl) hguards ?_ ?_⟩
    · rw [told_own_none hutters, ht]
      exact .refusing rfl
    · exact careful_of_silent hutters (fun m => ⟨_, rfl⟩) rfl
    · simp [ht]
  | poisoned hf hp => exact ⟨_, h.take hs ht hf (.spurning hp) fun _ => rfl⟩
  | acquired hf hp => exact ⟨_, h.take hs ht hf (.recording hp) fun _ => rfl⟩

theorem own_recording {found : Mutex V} (h : Pursues w t p g slot xs w₁ (.full found))
    (hf : found.poisoned = false) (hs : (w₁.thread t).stage = .recording g slot)
    (ht : told t xs = [⟨.attempt, g, .ok ()⟩]) (hw : w₁.Step t (.recording g slot) w₂) :
    ∃ hand', Pursues w t p g slot (xs ++ [⟨true, w₁, w₂⟩]) w₂ hand' := by
  refine ⟨.full found, ?_⟩
  have hmem : ⟨.attempt, g, .ok ()⟩ ∈ told t xs := by simp [ht]
  cases hw with
  | @recorded _ _ w₃ he =>
    have hguards := h.guards
    simp only [hs, Stage.stock] at hguards
    have hu : (w₁.thread t).stage.utters = some (.acquired, g) := by simp [hs, Stage.utters]
    obtain ⟨-, hg, hholder, -⟩ := uttered he
    have hmutex (m : MutexId) : w₃.mutex m = w₁.mutex m := by
      rw [← mutex_emit w₁ t g.emitter .acquired g.name m, he]
    apply h.become
    · rw [told_own hu he, ht]
      exact .obtained hf
    · exact h.handling.still true (hmutex g.mutex)
    · intro m _
      exact congrFun hholder m
    · rw [keep, thread_setGuards_self, World.guards, hg, hguards]
      rfl
    · exact careful_of_emit hu he rfl rfl
    · exact .inl hmem
  | unrecorded he =>
    apply h.utter hs rfl he
    · rw [ht]
      exact .yielding _
    · simp [Stage.stock]
    · exact .inl hmem

/-- The mutex is given back, whatever for. -/
theorem own_yielding {err : TraceError} {found : Mutex V}
    (h : Pursues w t p g slot xs w₁ (.full found)) (hs : (w₁.thread t).stage = .yielding g err)
    (hphase : Pursuit p g slot (.finished (.failed err)) (told t xs) (.emptied found))
    (hmem : ⟨.attempt, g, .ok ()⟩ ∈ told t xs) (hw : w₁.Step t (.yielding g err) w₂) :
    ∃ hand', Pursues w t p g slot (xs ++ [⟨true, w₁, w₂⟩]) w₂ hand' := by
  have hutters : (w₁.thread t).stage.utters = none := by simp [hs, Stage.utters]
  have hguards := h.guards
  rw [hs] at hguards
  refine ⟨.emptied found, ?_⟩
  cases hw with
  | yielded =>
    apply h.become
    · rw [told_own_none hutters]
      exact hphase
    · exact h.handling.giveBack h.handling.mutex_free
    · intro m hm
      rw [holder_free, if_neg (Ne.symm hm)]
    · exact hguards
    · exact careful_of_silent hutters (mutex_free w₁ g.mutex) rfl
    · exact .inl hmem

/-- Each move of the thread carries the acquisition on. -/
theorem own (h : Pursues w t p g slot xs w₁ hand) (hw : w₁.Step t (w₁.thread t).stage w₂) :
    ∃ hand', Pursues w t p g slot (xs ++ [⟨true, w₁, w₂⟩]) w₂ hand' := by
  have hphase := h.phase
  generalize ht : told t xs = ts at hphase
  generalize hs : (w₁.thread t).stage = s at hphase hw
  cases hphase with
  | attempting => exact h.own_attempting hs ht hw
  | acquiring => exact h.own_acquiring hs ht hw
  | refusing hp => exact h.own_refusing hp hs ht hw
  | recording hf => exact h.own_recording hf hs ht hw
  | spurning hf => exact h.own_yielding hs (ht ▸ .spurned hf) (by simp [ht]) hw
  | yielding e => exact h.own_yielding hs (ht ▸ .yielded e) (by simp [ht]) hw
  -- an answer is the end: there is no move from there
  | unattempted | refused | unrefused | spurned | obtained | yielded => contradiction

end Pursues

/-- The thread has got the guard that it asked for, into a slot behind those that were there: it has
the mutex, which was not poisoned when it was handed out, and has recorded first the attempt and
then the acquisition. -/
structure Obtained (w : World V R) (t : ThreadId) (g : Guard) (slot : Slot)
    (xs : List (Moment V R)) (w' : World V R) : Prop where
  holds : ∀ m, w'.holder m = some t ↔ w.holder m = some t ∨ m = g.mutex
  taken : ∃ found, Handling w t g.mutex (.full found) xs w' ∧ found.poisoned = false
  guards : (w'.thread t).guards = (w.thread t).guards.set slot (w.guards t slot ++ [g])
  told : told t xs = [⟨.attempt, g, .ok ()⟩, ⟨.acquired, g, .ok ()⟩]

/-- The thread has got no guard, and on its way it has left no trace of having got one: it has the
mutexes and the guards that it had, and has recorded neither an acquisition nor tried to record a
release. If the mutex was handed to it at all, then poisoned or before a record of the acquisition
that was refused, it has let it go again, and left it as it had been found. Whoever fails after the
record of the attempt without trying another one has had it in hand poisoned. No other mutex was
handed to the thread. Unless it recorded the attempt it has neither looked at a mutex nor changed
one. -/
structure Forgone (w : World V R) (t : ThreadId) (m : MutexId) (label : String)
    (xs : List (Moment V R)) (w' : World V R) : Prop where
  holds : ∀ m', w'.holder m' = some t ↔ w.holder m' = some t
  guards : (w'.thread t).guards = (w.thread t).guards
  returned : Handling w t m .empty xs w' ∨ ∃ found, Handling w t m (.emptied found) xs w' ∧
    (found.poisoned = true ∨ ∃ y ∈ told t xs, y.kind = .acquired)
  spurned : ∀ y, told t xs = [y] → y.result.isOk = true →
    ∃ found, Handling w t m (.emptied found) xs w' ∧ found.poisoned = true
  elsewhere : ∀ m', m' ≠ m → Handling w t m' .empty xs w'
  unreleased : ∀ y ∈ told t xs, y.kind ≠ .released
  unrecorded : ∀ y ∈ told t xs, y.kind = .acquired → y.result.isOk = false
  untouched : label = "" ∨ (∃ y ∈ told t xs, y.kind = .attempt ∧ y.result.isOk = false) →
    ∀ x ∈ xs, x.own = true →
      x.before.Blind t ∧ x.after.mutexes = x.before.mutexes

variable {drift : R → R → Prop} {w₀ : World V R} {hist : List (ThreadId × Guard × Feat V)}
  {hand : Hand V}

omit [Recorder R] in
/-- How the acquisition of a mutex begins. -/
theorem begin_lock {e : EmitterId} {m : MutexId} {label : String}
    (hb : w.begin t (.lock p e m label slot) = some w₁) :
    w₁ = w.setStage t (match LockName.ofString? label with
      | none => .finished (.failed .invalidLabel)
      | some name => .attempting p ⟨m, name, e⟩ slot) := by
  unfold begin at hb
  split at hb
  · simp only [opening, Option.map_some, Option.some.injEq] at hb
    exact hb.symm
  · contradiction

/-- From its beginning on an acquisition is in pursuit of its guard. -/
theorem Stretch.pursues (h₀ : w₀.Fresh) (h : Annals drift w₀ hist w₁)
    (hb : w₁ = w.setStage t (.attempting p g slot)) (hs : Stretch drift t w₁ xs w') :
    ∃ hand, Pursues w t p g slot xs w' hand := by
  refine Stretch.invariant (P := fun xs w' => ∃ hand, Pursues w t p g slot xs w' hand)
    h₀ h ?_ ?_ ?_ hs
  · subst hb
    refine ⟨.empty, ?_, .start rfl, fun _ _ => .start rfl, ?_, ?_, ?_⟩
    · rw [thread_setStage_self]
      exact .attempting
    · simp [Stage.stock]
    · simp
    · simp
  · rintro xs w w' hist' - ⟨hand, h⟩ hw
    exact h.own hw
  · rintro xs w w' hw ⟨hand, h⟩
    exact ⟨hand, h.beside hw⟩

/-- Where the pursuit of a guard ends it has been obtained or forgone. -/
theorem Pursues.ends {label : String} {a : Answer V} (h : Pursues w t p g slot xs w' hand)
    (hl : label ≠ "") (ha : (w'.thread t).stage = .finished a) :
    (a = .ok ∧ Obtained w t g slot xs w') ∨
      ((a = .notHeld ∧ p = .tries ∨ ∃ err, a = .failed err) ∧
        Forgone w t g.mutex label xs w') := by
  have hphase := h.phase
  have hguards := h.guards
  have huntouched := h.untouched
  rw [ha] at hphase hguards
  generalize ht : told t xs = ts at hphase huntouched
  have forgone (hok : a ≠ .ok) (hts : ∀ y ∈ ts, y.kind ≠ .released ∧
      (y.kind = .acquired → y.result.isOk = false))
      (hattempt : (∃ y ∈ ts, y.kind = .attempt ∧ y.result.isOk = false) →
        ⟨.attempt, g, .ok ()⟩ ∉ ts)
      (hhand : hand = .empty ∨ ∃ found, hand = .emptied found ∧
        (found.poisoned = true ∨ ∃ y ∈ ts, y.kind = .acquired))
      (hspurned : ∀ y, ts = [y] → y.result.isOk = true →
        ∃ found, hand = .emptied found ∧ found.poisoned = true) :
      Forgone w t g.mutex label xs w' := by
    have hfull (found : Mutex V) : hand ≠ .full found := by
      rcases hhand with rfl | ⟨found', rfl, -⟩ <;> simp
    have hstock : (Stage.finished a).stock g slot (w.thread t).guards = (w.thread t).guards := by
      cases a <;> simp [Stage.stock] at hok ⊢
    constructor
    case holds =>
      intro m
      by_cases hm : m = g.mutex
      · rw [hm]
        exact h.handling.holder_of_not_full hfull
      · exact (h.elsewhere m hm).inHand
    case guards => rw [hguards, hstock]
    case returned =>
      rw [ht]
      rcases hhand with rfl | ⟨found, rfl, hwhy⟩
      · exact .inl h.handling
      · exact .inr ⟨found, h.handling, hwhy⟩
    case spurned =>
      intro y hy hyok
      obtain ⟨found, rfl, hpoisoned⟩ := hspurned y (ht ▸ hy) hyok
      exact ⟨found, h.handling, hpoisoned⟩
    case elsewhere => exact h.elsewhere
    case unreleased =>
      intro y hy
      rw [ht] at hy
      exact (hts y hy).1
    case unrecorded =>
      intro y hy
      rw [ht] at hy
      exact (hts y hy).2
    case untouched =>
      rw [ht]
      intro hno
      exact huntouched (hattempt (hno.resolve_left hl))
  cases hphase with
  | obtained hf =>
    left
    refine ⟨rfl, ?_, ⟨_, h.handling, hf⟩, hguards, ht⟩
    intro m
    by_cases hm : m = g.mutex
    · simp [hm, h.handling.holder_of_full]
    · rw [or_iff_left hm]
      exact (h.elsewhere m hm).inHand
  | refused hp =>
    right
    refine ⟨.inl ⟨rfl, hp⟩, forgone ?_ ?_ ?_ ?_ ?_⟩ <;> simp [Except.isOk, Except.toBool]
  | spurned hf =>
    right
    refine ⟨.inr ⟨_, rfl⟩, forgone ?_ ?_ ?_ ?_ ?_⟩ <;> simp [Except.isOk, Except.toBool, hf]
  | unattempted err | unrefused err | yielded err =>
    right
    refine ⟨.inr ⟨_, rfl⟩, forgone ?_ ?_ ?_ ?_ ?_⟩ <;> simp [Except.isOk, Except.toBool]

/-- An acquisition ends with a guard or without any trace of one, whatever its label, whoever has
the mutex, whether that is poisoned, and whichever records are taken. On its way it changes no value
and poisons nothing, and of the records that it tries to make just those can be seen that were
taken. -/
theorem acquisition_all_or_nothing (h₀ : w₀.Fresh) (h : Annals drift w₀ hist w) {e : EmitterId}
    {m : MutexId} {label : String} (hb : w.begin t (.lock p e m label slot) = some w₁)
    (hs : Stretch drift t w₁ xs w') {a : Answer V} (ha : (w'.thread t).stage = .finished a) :
    (∀ x ∈ xs, x.own = true → x.Careful t e) ∧
    ((a = .ok ∧ ∃ name, LockName.ofString? label = some name ∧
        Obtained w t ⟨m, name, e⟩ slot xs w') ∨
      ((a = .notHeld ∧ p = .tries ∨ ∃ err, a = .failed err) ∧ Forgone w t m label xs w')) := by
  have hbegun := h.begin t _ hb
  have hopening := begin_lock hb
  cases hl : LockName.ofString? label with
  | none =>
    rw [hl] at hopening
    have hw₁ : (w₁.thread t).stage = .finished (.failed .invalidLabel) := by
      rw [hopening, thread_setStage_self]
    obtain ⟨hthread, hholds, hbeside⟩ := hs.rests h₀ hbegun hw₁
    have hno {x : Moment V R} (hx : x ∈ xs) : x.own ≠ true := by simp [hbeside x hx]
    have htold : told t xs = [] := by
      rw [told, List.filterMap_eq_nil_iff]
      intro x hx
      simp [Moment.tells, hbeside x hx]
    have hfailed : a = .failed .invalidLabel := by
      rw [hthread, hw₁] at ha
      simpa using ha.symm
    refine ⟨fun x hx hown => absurd hown (hno hx), .inr ⟨.inr ⟨_, hfailed⟩, ?_⟩⟩
    have hhandling (m' : MutexId) : Handling w t m' .empty xs w' :=
      hs.handling_of_finished h₀ hbegun hw₁ (hopening ▸ mutex_setStage ..)
    refine ⟨?_, ?_, .inl (hhandling m), ?_, fun m' _ => hhandling m', ?_, ?_,
      fun _ x hx hown => absurd hown (hno hx)⟩
    · intro m'
      rw [hholds m', hopening]
      simp [holder]
    · rw [hthread, hopening]
      simp
    · simp [htold]
    · simp [htold]
    · simp [htold]
  | some name =>
    rw [hl] at hopening
    obtain ⟨hand, hpursues⟩ := hs.pursues h₀ hbegun hopening
    have hlabel : label ≠ "" := by
      intro he
      rw [LockName.ofString?_eq_none.mpr he] at hl
      contradiction
    refine ⟨hpursues.careful, ?_⟩
    rcases hpursues.ends hlabel ha with ⟨hok, hobtained⟩ | hforgone
    · exact .inl ⟨hok, name, rfl, hobtained⟩
    · exact .inr hforgone

section Contended

/-- A thread gets a mutex, and lets it go again after another thread has tried to get it. -/
def contended : List (ThreadId × Happening Nat) :=
  [(0, .advance), (1, .begin (.lock .tries 0 0 "J" 0)), (1, .advance), (0, .advance),
    (1, .advance), (0, .advance), (1, .advance)]

/-- A world in which nothing has happened yet, but that its mutexes have been poisoned. -/
def tainted : World Nat Desk :=
  { mutexes := ⟨{ value := 0, poisons := true, poisoned := true }, []⟩
    recorder := { sinks := ⟨.stdout, []⟩ } }

/-- What the first of two threads is answered, what it tries to record, what the second is answered,
and who has the mutex at each moment. -/
theorem exists_stretch_of_attend (w : World Nat Desk) (ys : List (ThreadId × Happening Nat))
    (a a' : Answer Nat) (ts : List Telling) (holders : List (Option ThreadId))
    (h : ((w.begin 0 (.lock .waits 0 0 "J" 0)).bind fun w₁ => (w₁.attend? 0 [] ys).map fun r =>
      ((r.2.thread 0).stage.answered?, told 0 r.1, (r.2.thread 1).stage.answered?,
        r.1.map fun x => x.after.holder 0)) = some (some a, ts, some a', holders)) :
    ∃ w₁ xs w', w.begin 0 (.lock .waits 0 0 "J" 0) = some w₁ ∧ Stretch Eq 0 w₁ xs w' ∧
      (w'.thread 0).stage = .finished a ∧ told 0 xs = ts ∧
      (w'.thread 1).stage = .finished a' ∧ xs.map (fun x => x.after.holder 0) = holders := by
  obtain ⟨w₁, hb, h⟩ := Option.bind_eq_some_iff.mp h
  obtain ⟨⟨xs, w'⟩, hattend, he⟩ := Option.map_eq_some_iff.mp h
  simp only [Prod.mk.injEq, Stage.answered?_eq_some] at he
  obtain ⟨hstage, htold, hstage', hholders⟩ := he
  exact ⟨w₁, xs, w', hb, Stretch.start.attend hattend, hstage, htold, hstage', hholders⟩

/-- As no record is taken of its acquisition a thread lets a mutex go again, and so does a thread
that got a poisoned one. In both cases another thread finds the mutex held meanwhile. -/
theorem acquisition_all_or_nothing_unwitnessed :
    (leaky.Fresh ∧ Annals Eq leaky [] leaky ∧
      ∃ w₁ xs w', leaky.begin 0 (.lock .waits 0 0 "J" 0) = some w₁ ∧ Stretch Eq 0 w₁ xs w' ∧
        (w'.thread 0).stage = .finished (.failed (.sink .nothingWritten)) ∧
        told 0 xs =
          [⟨.attempt, guardJ, .ok ()⟩, ⟨.acquired, guardJ, .error (.sink .nothingWritten)⟩] ∧
        (w'.thread 1).stage = .finished .notHeld ∧
        xs.map (fun x => x.after.holder 0) =
          [none, none, none, some 0, some 0, some 0, some 0, none] ∧
        Forgone leaky 0 0 "J" xs w') ∧
    tainted.Fresh ∧ Annals Eq tainted [] tainted ∧
      ∃ w₁ xs w', tainted.begin 0 (.lock .waits 0 0 "J" 0) = some w₁ ∧ Stretch Eq 0 w₁ xs w' ∧
        (w'.thread 0).stage = .finished (.failed (.poisoned guardJ.name)) ∧
        told 0 xs = [⟨.attempt, guardJ, .ok ()⟩] ∧
        (w'.thread 1).stage = .finished .notHeld ∧
        xs.map (fun x => x.after.holder 0) = [none, none, none, some 0, some 0, none, none] ∧
        Forgone tainted 0 0 "J" xs w' := by
  constructor
  · have h₀ : leaky.Fresh := ⟨fun _ => rfl, fun _ => rfl⟩
    have h : Annals Eq leaky [] leaky := .start
    obtain ⟨w₁, xs, w', hb, hs, ha, htold, ha', hholders⟩ :=
      exists_stretch_of_attend leaky (contended ++ [(0, .advance)])
        (.failed (.sink .nothingWritten)) .notHeld
        [⟨.attempt, guardJ, .ok ()⟩, ⟨.acquired, guardJ, .error (.sink .nothingWritten)⟩]
        [none, none, none, some 0, some 0, some 0, some 0, none] (by decide +kernel)
    refine ⟨h₀, h, w₁, xs, w', hb, hs, ha, htold, ha', hholders, ?_⟩
    rcases (acquisition_all_or_nothing h₀ h hb hs ha).2 with ⟨hok, -⟩ | ⟨-, hforgone⟩
    · contradiction
    · exact hforgone
  · have h₀ : tainted.Fresh := ⟨fun _ => rfl, fun _ => rfl⟩
    have h : Annals Eq tainted [] tainted := .start
    obtain ⟨w₁, xs, w', hb, hs, ha, htold, ha', hholders⟩ :=
      exists_stretch_of_attend tainted contended (.failed (.poisoned guardJ.name)) .notHeld
        [⟨.attempt, guardJ, .ok ()⟩] [none, none, none, some 0, some 0, none, none]
        (by decide +kernel)
    refine ⟨h₀, h, w₁, xs, w', hb, hs, ha, htold, ha', hholders, ?_⟩
    rcases (acquisition_all_or_nothing h₀ h hb hs ha).2 with ⟨hok, -⟩ | ⟨-, hforgone⟩
    · contradiction
    · exact hforgone

end Contended

end World

end LockTrace
