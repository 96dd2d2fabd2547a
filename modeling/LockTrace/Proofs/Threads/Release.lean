import LockTrace.Proofs.Threads.Annals
import LockTrace.Sink.Desk

namespace LockTrace

variable {V R α β : Type}

/-- A guard as its owner has it: the hold on the mutex, until it is taken out, the name and the
emitter. -/
structure Handle where
  hold : Option MutexId
  name : LockName
  emitter : EmitterId

/-- The handle of a guard that has just come into being. -/
def Guard.handle (g : Guard) : Handle := ⟨some g.mutex, g.name, g.emitter⟩

/-- The hold of a guard once this has happened too. It comes with the record of the acquisition, and
is taken out by whoever lets the guard go. -/
def Guard.holdAfter (g : Guard) (hold : Option MutexId) : Feat V → Option MutexId
  | .emitted .acquired (.ok ()) => some g.mutex
  | .left _ => none
  | _ => hold

/-- The handle of a guard after all that has happened to it. -/
def Guard.handleAfter (g : Guard) (fs : List (Feat V)) : Handle :=
  ⟨fs.foldl g.holdAfter none, g.name, g.emitter⟩

theorem Guard.holdAfter_of_works {g : Guard} {hold : Option MutexId} {f : Feat V} (h : f.Works) :
    g.holdAfter hold f = hold := by
  cases f with
  | used | lent | regained | broke => rfl
  | emitted k r => cases k <;> first | rfl | contradiction
  | took | left | freed | ended => contradiction

/-- Work with a guard leaves the hold in its handle. -/
theorem Guard.handleAfter_of_works {g : Guard} {past work : List (Feat V)}
    (h : ∀ f ∈ work, f.Works) : g.handleAfter (past ++ .obtained :: work) = g.handle := by
  have hold (m : Option MutexId) : work.foldl g.holdAfter m = m := by
    induction work with
    | nil => rfl
    | cons f fs ih =>
      obtain ⟨hf, hfs⟩ := List.forall_mem_cons.mp h
      rw [List.foldl_cons, holdAfter_of_works hf, ih hfs]
  rw [handleAfter, List.foldl_append, List.foldl_cons, hold]
  rfl

/-- What is left to do for a call, one thing after the other: records, by whose results it depends
how to go on, mutexes to let go, and things to say. -/
inductive Duty (α : Type)
  | done (a : α)
  | emit (e : EmitterId) (kind : Kind) (name : LockName) (next : Except TraceError Unit → Duty α)
  | free (m : MutexId) (next : Duty α)
  | note (n : Notice) (next : Duty α)

def Duty.bind : Duty α → (α → Duty β) → Duty β
  | .done a, k => k a
  | .emit e kind name next, k => .emit e kind name fun r => (next r).bind k
  | .free m next, k => .free m (next.bind k)
  | .note n next, k => .note n (next.bind k)

namespace Handle

/-- Takes the hold out, unless that has been done, and lets the mutex go after a record of it. -/
def releaseInner (h : Handle) : Duty (Except TraceError Unit × Handle) :=
  match h.hold with
  | none => .done (.ok (), h)
  | some m => .emit h.emitter .released h.name fun r => .free m (.done (r, { h with hold := none }))

/-- What happens to every handle in the end. -/
def drop (h : Handle) : Duty Unit :=
  h.releaseInner.bind fun
    | (.ok (), _) => .done ()
    | (.error e, h) => .note (unrecorded h.name e) (.done ())

/-- An explicit release, at the end of which the handle is dropped like any other. -/
def release (h : Handle) : Duty (Except TraceError Unit) :=
  h.releaseInner.bind fun (r, h) => h.drop.bind fun () => .done r

end Handle

/-- All that there is to do for a guard that its owner lets go. -/
def Leave.duty (h : Handle) : Leave → Duty (Answer V)
  | .released => h.release.bind fun r => .done (.ofResult r)
  | .dropped => h.drop.bind fun () => .done .ok
  | .unwound => h.drop.bind fun () => .done (.panicked .unwinding)

section Tenure

variable {s : Stage V} {g : Guard} {how : Leave} {r : Except TraceError Unit}

theorem Stage.eq_leaving (h : s.tenure? = some (g, .leaving how)) : s = .leaving how g := by
  cases s <;> cases h
  rfl

theorem Stage.eq_freeing (h : s.tenure? = some (g, .parting how r)) : s = .freeing how g r := by
  cases s <;> cases h
  rfl

theorem Stage.tenure?_ne_parted : s.tenure? ≠ some (g, .parted how r) := by
  intro h
  cases s <;> cases h

end Tenure

namespace World

/-- A thread does all that is left to do for its call at once. -/
def discharge [Recorder R] (w : World V R) (t : ThreadId) (unwinding : Bool) :
    Duty (Answer V) → World V R
  | .done a => w.finish t a
  | .emit e kind name next =>
    let (r, w) := w.emit t e kind name
    w.discharge t unwinding (next r)
  | .free m next => (w.free m unwinding).discharge t unwinding next
  | .note n next => (w.note n).discharge t unwinding next

variable [Recorder R] {w₀ w : World V R} {t : ThreadId} {g : Guard}
  {xs : List (ThreadId × Guard × Feat V)} {pre post : List (Feat V)}

/-- In this world nothing keeps the thread from doing for the guard, once it lets the guard go, what
there is to do: first a record, and by its result the rest. -/
structure Discharges (w : World V R) (t : ThreadId) (g : Guard) (how : Leave)
    (next : Except TraceError Unit → Duty (Answer V)) : Prop where
  begins : ∀ slot, (w.thread t).stage = .idle → w.guard? t slot = some g →
    ∃ w', w.begin t (.leave how slot) = some w' ∧ (w'.thread t).stage = .leaving how g
  records : (w.thread t).stage = .leaving how g → ∀ pick r w₁,
    w.emit t g.emitter .released g.name = (r, w₁) →
      w.advance t pick = some (w₁.setStage t (.freeing how g r))
  ends : ∀ r, (w.thread t).stage = .freeing how g r → ∀ pick,
    w.advance t pick = some (w.discharge t (how = .unwound) (next r))

theorem exists_discharges (w : World V R) (t : ThreadId) (g : Guard) (how : Leave) :
    ∃ next, how.duty g.handle = .emit g.emitter .released g.name next ∧
      w.Discharges t g how next := by
  have begins (slot : Slot) (hi : (w.thread t).stage = .idle) (hg : w.guard? t slot = some g) :
      ∃ w', w.begin t (.leave how slot) = some w' ∧ (w'.thread t).stage = .leaving how g := by
    refine ⟨(w.setGuards t slot (w.guards t slot).tail).setStage t (.leaving how g), ?_, ?_⟩
    · simp only [begin, opening, hi, hg, Option.map_some]
    · rw [thread_setStage_self]
  have records (hs : (w.thread t).stage = .leaving how g) (pick : List Waiter → Option Waiter)
      (r : Except TraceError Unit) (w₁ : World V R)
      (he : w.emit t g.emitter .released g.name = (r, w₁)) :
      w.advance t pick = some (w₁.setStage t (.freeing how g r)) := by
    simp only [advance, hs, he]
  cases how
  all_goals
    refine ⟨_, rfl, begins, records, fun r hs pick => ?_⟩
    cases r <;> (simp only [advance, hs]; rfl)

/-- What has become of a guard since it was obtained, and where its owner is with it. First there is
work, during which the owner keeps it and has its mutex, but for the time of a sleep. Then the owner
lets it go: there is one record, after that the mutex is free, and the call is answered. Before
the like of it can be seen again the mutex has to be taken anew. -/
inductive Fate (w : World V R) (t : ThreadId) (g : Guard) : List (Feat V) → Prop
  | kept {work : List (Feat V)} (hw : ∀ f ∈ work, f.Works) (hk : g ∈ (w.thread t).kept) :
      Fate w t g work
  | leaving {work : List (Feat V)} {how : Leave} (hw : ∀ f ∈ work, f.Works)
      (hs : (w.thread t).stage = .leaving how g) (hh : w.holder g.mutex = some t) :
      Fate w t g (work ++ [.left how])
  | parting {work : List (Feat V)} {how : Leave} {r : Except TraceError Unit}
      (hw : ∀ f ∈ work, f.Works) (hs : (w.thread t).stage = .freeing how g r)
      (hh : w.holder g.mutex = some t) : Fate w t g (work ++ [.left how, .emitted .released r])
  | finished {work next : List (Feat V)} {how : Leave} {r : Except TraceError Unit} {a : Answer V}
      {said : List Notice} (hw : ∀ f ∈ work, f.Works) (he : how.Ends g.name r a said)
      (hn : next = [] ∨ ∃ rest, next = .took :: rest) :
      Fate w t g (work ++ [.left how, .emitted .released r, .freed, .ended a said] ++ next)

omit [Recorder R] in
/-- A guard that its owner keeps is in one of the owner's slots. -/
theorem Stands.mem_kept (h : w.Stands xs)
    (hp : ((w.thread t).stage.tenure (w.thread t).kept g).Kept) : g ∈ (w.thread t).kept := by
  rcases (w.thread t).stage.tenure_cases (w.thread t).kept g with he | hs
  · by_contra hk
    rw [he, keeping_of_notMem hk] at hp
    contradiction
  · exact (h.grasp t).works g (Stage.works_of_tenure? hs hp)

omit [Recorder R] in
/-- A guard in a slot is its owner's to keep, whatever the owner does with it just now. -/
theorem Stands.tenure_kept (h : w.Stands xs) (hk : g ∈ (w.thread t).kept) :
    ((w.thread t).stage.tenure (w.thread t).kept g).Kept := by
  rcases (w.thread t).stage.tenure_cases (w.thread t).kept g with he | hs
  · rw [he, keeping_of_mem hk]
    trivial
  · by_contra hp
    exact (h.grasp t).notMem (Stage.carried_of_tenure? hs hp) hk

omit [Recorder R] in
theorem Stands.fate (h : w.Stands xs) (hx : tale t g xs = pre ++ .obtained :: post) :
    Fate w t g post := by
  have hseq := (h.life t g).sequel hx
  generalize hp : (w.thread t).stage.tenure (w.thread t).kept g = p at hseq
  cases hseq with
  | kept hk hw => exact .kept hw (h.mem_kept (hp ▸ hk))
  | leaving hw =>
    have hs := Stage.eq_leaving (Stage.tenure?_of_tenure hp (by simp) (by simp))
    exact .leaving hw hs ((h.grasp_at hs).holds g (by simp [Stage.view]) List.not_mem_nil)
  | parting hw =>
    have hs := Stage.eq_freeing (Stage.tenure?_of_tenure hp (by simp) (by simp))
    exact .parting hw hs ((h.grasp_at hs).holds g (by simp [Stage.view]) List.not_mem_nil)
  -- the mutex is let go and the call answered by one move, so nobody is ever between the two
  | parted hw =>
    exact absurd (Stage.tenure?_of_tenure hp (by simp) (by simp)) Stage.tenure?_ne_parted
  | finished hw he hn => exact .finished hw he (hn.imp_left And.left)

/-- At every moment of a run, whatever the calls of the threads and whatever the recorder does:
since a guard was obtained it has been worked with, and then ended by one record before its mutex
was let go, and by nothing else. It is only worked with while its owner keeps it, and then the hold
is in its handle, and the owner has the mutex but for the time of a sleep. What the stages of its
end do is what there is to do for its handle, where the drop of a handle that was released does
nothing. -/
theorem guard_released_once {drift : R → R → Prop} (h₀ : w₀.Fresh) (h : Annals drift w₀ xs w)
    (t : ThreadId) (g : Guard) :
    (∀ pre post, tale t g xs = pre ++ .obtained :: post → Fate w t g post) ∧
    (∀ pre f post, tale t g xs = pre ++ f :: post → f.Works →
      (∃ past work, pre = past ++ .obtained :: work ∧ ∀ f ∈ work, f.Works) ∧
      g.handleAfter pre = g.handle) ∧
    ((w.thread t).stage.works = some g → g ∈ (w.thread t).kept) ∧
    (g ∈ (w.thread t).kept →
      g.handleAfter (tale t g xs) = g.handle ∧
      (w.holder g.mutex = some t ∨ g ∈ (w.thread t).stage.view.lent)) ∧
    g.handle.release = .emit g.emitter .released g.name (fun r => .free g.mutex (.done r)) ∧
    ∀ how : Leave, ∃ next, how.duty g.handle = .emit g.emitter .released g.name next ∧
      w.Discharges t g how next := by
  have hs := h.stands h₀
  refine ⟨fun pre post => hs.fate, fun pre f post hx hf => ?_, (hs.grasp t).works g,
    fun hk => ⟨?_, ?_⟩, rfl, exists_discharges w t g⟩
  · obtain ⟨past, work, rfl, hw⟩ := (hs.life t g).obtained_of_works hx hf
    exact ⟨⟨past, work, rfl, hw⟩, Guard.handleAfter_of_works hw⟩
  · obtain ⟨past, work, he, hw⟩ := (hs.life t g).exists_obtained (hs.tenure_kept hk)
    rw [he]
    exact Guard.handleAfter_of_works hw
  · by_cases hl : g ∈ (w.thread t).stage.view.lent
    · exact .inr hl
    · exact .inl ((hs.grasp t).holds g (List.mem_append_left _ hk) hl)

/-- An output that refuses the third record, and takes all others. -/
def leakyOutput : Faulty :=
  { flaw := .failWrite, after := 2, times := some 1, error := .nothingWritten }

/-- A world in which nothing has happened yet, and all records go to that output. -/
def leaky : World Nat Desk :=
  { mutexes := ⟨{ value := 0 }, []⟩
    recorder := { sinks := ⟨.writer ⟨"b", leakyOutput⟩, []⟩ } }

/-- A thread uses what its guard protects and drops the guard, the release of which is not recorded.
Another thread, that waits for the mutex meanwhile, gets it. -/
def lostRecord : List (ThreadId × Happening Nat) :=
  [(0, .begin (.lock .waits 0 0 "J" 0)), (0, .advance), (0, .advance), (0, .advance), (0, .collect),
    (0, .begin (.access 0 (· + 1))), (0, .advance), (0, .collect),
    (0, .begin (.leave .dropped 0)), (0, .advance), (1, .begin (.lock .waits 0 0 "J" 0)),
    (1, .advance), (0, .advance), (1, .advance), (1, .advance)]

theorem nonempty_J : "J" ≠ "" := by decide

def guardJ : Guard := ⟨0, ⟨"J", nonempty_J⟩, 0⟩

/-- What happens to the dropped guard once it was obtained. -/
def lostRecordTale : List (Feat Nat) :=
  [.used, .left .dropped, .emitted .released (.error (.sink .nothingWritten)), .freed,
    .ended .ok [unrecorded guardJ.name (.sink .nothingWritten)]]

theorem guard_released_once_lostRecord : leaky.Fresh ∧ ∃ xs w, Annals Eq leaky xs w ∧
    tale 0 guardJ xs = .took :: .obtained :: lostRecordTale ∧ w.Fate 0 guardJ lostRecordTale ∧
    w.holder 0 = some 1 := by
  have h₀ : leaky.Fresh := ⟨fun _ => rfl, fun _ => rfl⟩
  obtain ⟨⟨xs, w⟩, hplay, htale, hholder⟩ : ∃ r, leaky.chronicle? [] lostRecord = some r ∧
      tale 0 guardJ r.1 = .took :: .obtained :: lostRecordTale ∧ r.2.holder 0 = some 1 := by
    have hsome : (leaky.chronicle? [] lostRecord).map
        (fun r => (tale 0 guardJ r.1, r.2.holder 0)) =
          some (.took :: .obtained :: lostRecordTale, some 1) := by decide +kernel
    obtain ⟨r, hr, he⟩ := Option.map_eq_some_iff.mp hsome
    exact ⟨r, hr, (Prod.mk.inj he).1, (Prod.mk.inj he).2⟩
  have h : Annals Eq leaky xs w := Annals.start.chronicle hplay
  exact ⟨h₀, xs, w, h, htale, (guard_released_once h₀ h 0 guardJ).1 [.took] _ htale, hholder⟩

end World

end LockTrace
