import LockTrace.Proofs.Threads.Course

namespace LockTrace

variable {V : Type}

deriving instance DecidableEq for Answer

/-- Something that happens to a guard: its mutex is taken, a record is made for it, which is taken
or refused, the value behind it is used, its mutex is lent for the time of a sleep and got back, a
sleep breaks down before it begins, its owner lets it go, its mutex is let go, and the call that
ended it has its answer, with what was said by then. -/
inductive Feat (V : Type)
  | took
  | emitted (kind : Kind) (result : Except TraceError Unit)
  | used
  | lent
  | regained
  | broke
  | left (how : Leave)
  | freed
  | ended (a : Answer V) (said : List Notice)
  deriving DecidableEq

namespace Feat

/-- The guard comes into being when the record of its acquisition is taken. -/
abbrev obtained : Feat V := .emitted .acquired (.ok ())

/-- It is work with a guard that leaves the guard to its owner. -/
def Works : Feat V → Prop
  | .used | .lent | .regained | .broke | .emitted .wait _ | .emitted .woken _ => True
  | _ => False

end Feat

/-- What is said of a release that could not be recorded, if nobody asks for its result. -/
def lost (name : LockName) : Except TraceError Unit → List Notice
  | .ok () => []
  | .error e => [unrecorded name e]

/-- What the end of a guard comes to by the result of its last record. An explicit release hands on
the result, a guard that ends by itself can only speak of it. -/
def Leave.Ends (name : LockName) :
    Leave → Except TraceError Unit → Answer V → List Notice → Prop
  | .released, r, a, said => a = .ofResult r ∧ said = []
  | .dropped, r, a, said => a = .ok ∧ said = lost name r
  | .unwound, r, a, said => a = .panicked .unwinding ∧ said = lost name r

/-- Where a thread stands with a guard. -/
inductive Tenure
  | absent
  | gripping
  | yielding
  | owned
  | drowsy
  | asleep
  | waking
  | leaving (how : Leave)
  | parting (how : Leave) (result : Except TraceError Unit)
  | parted (how : Leave) (result : Except TraceError Unit)

namespace Tenure

/-- The guard is there, and it is its owner's. -/
def Kept : Tenure → Prop
  | .owned | .drowsy | .asleep | .waking => True
  | _ => False

/-- What can happen to a guard, and what comes of it. A mutex that is taken although it is poisoned
is only to be given back. -/
inductive Step (name : LockName) : Tenure → Feat V → Tenure → Prop
  | took : Step name .absent .took .gripping
  | spurned : Step name .absent .took .yielding
  | obtained : Step name .gripping .obtained .owned
  | unrecorded (e : TraceError) : Step name .gripping (.emitted .acquired (.error e)) .yielding
  | yielded : Step name .yielding .freed .absent
  | used : Step name .owned .used .owned
  | slept : Step name .owned (.emitted .wait (.ok ())) .drowsy
  | unslept (e : TraceError) : Step name .owned (.emitted .wait (.error e)) .owned
  | broke : Step name .drowsy .broke .owned
  | lent : Step name .drowsy .lent .asleep
  | regained : Step name .asleep .regained .waking
  | woke (r : Except TraceError Unit) : Step name .waking (.emitted .woken r) .owned
  | left (how : Leave) : Step name .owned (.left how) (.leaving how)
  | released (how : Leave) (r : Except TraceError Unit) :
      Step name (.leaving how) (.emitted .released r) (.parting how r)
  | freed (how : Leave) (r : Except TraceError Unit) :
      Step name (.parting how r) .freed (.parted how r)
  | ended {how : Leave} {r : Except TraceError Unit} {a : Answer V} {said : List Notice}
      (h : how.Ends name r a said) : Step name (.parted how r) (.ended a said) .absent

variable {name : LockName} {p p' : Tenure} {f : Feat V}

/-- Only a guard that its owner keeps is worked with. -/
theorem Step.kept_of_works (h : Step name p f p') (hf : f.Works) : p.Kept := by
  cases h
  all_goals trivial

/-- A kept guard stays kept under all work with it, until its owner lets it go. -/
theorem Step.of_kept (h : Step name p f p') (hp : p.Kept) :
    f.Works ∧ p'.Kept ∨ ∃ how, f = .left how ∧ p' = .leaving how := by
  cases h with
  | used | slept | unslept | broke | lent | regained | woke => exact .inl ⟨trivial, trivial⟩
  | left how => exact .inr ⟨how, rfl, rfl⟩
  | took | spurned | obtained | unrecorded | yielded | released | freed | ended => contradiction

/-- A guard that its owner keeps only comes into being by the record of its acquisition. -/
theorem Step.obtained_or_works (h : Step name p f p') (hp : p'.Kept) :
    f = .obtained ∨ f.Works ∧ p.Kept := by
  cases h with
  | obtained => exact .inl rfl
  | used | slept | unslept | broke | lent | regained | woke => exact .inr ⟨trivial, trivial⟩
  | took | spurned | unrecorded | yielded | left | released | freed | ended => contradiction

/-- All that has happened to a guard, and where that leaves it. -/
inductive Life (name : LockName) : List (Feat V) → Tenure → Prop
  | start : Life name [] .absent
  | step {fs : List (Feat V)} {p p' : Tenure} {f : Feat V} (h : Life name fs p)
      (hs : Step name p f p') : Life name (fs ++ [f]) p'

/-- What has happened to a guard since it was obtained: work with it, and then its end, which is one
record, the mutex let go, and the answer. Only after that can the like of it be had again. -/
inductive Sequel (name : LockName) : Tenure → List (Feat V) → Prop
  | kept {p : Tenure} {work : List (Feat V)} (hp : p.Kept) (hw : ∀ f ∈ work, f.Works) :
      Sequel name p work
  | leaving {work : List (Feat V)} {how : Leave} (hw : ∀ f ∈ work, f.Works) :
      Sequel name (.leaving how) (work ++ [.left how])
  | parting {work : List (Feat V)} {how : Leave} {r : Except TraceError Unit}
      (hw : ∀ f ∈ work, f.Works) :
      Sequel name (.parting how r) (work ++ [.left how, .emitted .released r])
  | parted {work : List (Feat V)} {how : Leave} {r : Except TraceError Unit}
      (hw : ∀ f ∈ work, f.Works) :
      Sequel name (.parted how r) (work ++ [.left how, .emitted .released r, .freed])
  | finished {p : Tenure} {work next : List (Feat V)} {how : Leave} {r : Except TraceError Unit}
      {a : Answer V} {said : List Notice} (hw : ∀ f ∈ work, f.Works) (he : how.Ends name r a said)
      (hn : next = [] ∧ p = .absent ∨ ∃ rest, next = .took :: rest) :
      Sequel name p (work ++ [.left how, .emitted .released r, .freed, .ended a said] ++ next)

theorem Sequel.step {fs : List (Feat V)} (h : Sequel name p fs) (hs : Step name p f p') :
    Sequel name p' (fs ++ [f]) := by
  cases h with
  | kept hp hw =>
    rcases hs.of_kept hp with ⟨hf, hp'⟩ | ⟨how, rfl, rfl⟩
    · refine .kept hp' fun f' hf' => ?_
      rcases List.mem_append.mp hf' with hf' | hf'
      · exact hw f' hf'
      · rw [List.mem_singleton.mp hf']
        exact hf
    · exact .leaving hw
  | leaving hw =>
    cases hs
    rw [List.append_assoc]
    exact .parting hw
  | parting hw =>
    cases hs
    rw [List.append_assoc]
    exact .parted hw
  | parted hw =>
    cases hs with
    | ended he =>
      rw [List.append_assoc, ← List.append_nil (_ ++ _)]
      exact .finished hw he (.inl ⟨rfl, rfl⟩)
  | finished hw he hn =>
    rw [List.append_assoc]
    refine .finished hw he (.inr ?_)
    rcases hn with ⟨rfl, rfl⟩ | ⟨rest, rfl⟩
    · cases hs with
      | took | spurned => exact ⟨[], rfl⟩
    · exact ⟨rest ++ [f], rfl⟩

namespace Life

variable {fs pre post : List (Feat V)}

theorem sequel (h : Life name fs p) (he : fs = pre ++ .obtained :: post) :
    Sequel name p post := by
  induction h generalizing post with
  | start => simp at he
  | step h hs ih =>
    rcases split_append_singleton he with ⟨_, hf, rfl⟩ | ⟨post', rfl, hfs⟩
    · subst hf
      cases hs
      exact .kept trivial (by simp)
    · exact (ih hfs).step hs

/-- A guard that its owner keeps has been worked with only since it was obtained. -/
theorem exists_obtained (h : Life name fs p) (hp : p.Kept) :
    ∃ past work, fs = past ++ .obtained :: work ∧ ∀ f ∈ work, f.Works := by
  induction h with
  | start => contradiction
  | @step fs _ _ f h hs ih =>
    rcases hs.obtained_or_works hp with rfl | ⟨hf, hp⟩
    · exact ⟨fs, [], rfl, by simp⟩
    · obtain ⟨past, work, rfl, hw⟩ := ih hp
      refine ⟨past, work ++ [f], by simp, fun f' hf' => ?_⟩
      rcases List.mem_append.mp hf' with hf' | hf'
      · exact hw f' hf'
      · rw [List.mem_singleton.mp hf']
        exact hf

/-- Whenever a guard is worked with, it has been obtained, and nobody has let it go since. -/
theorem obtained_of_works (h : Life name fs p) (he : fs = pre ++ f :: post) (hf : f.Works) :
    ∃ past work, pre = past ++ .obtained :: work ∧ ∀ f ∈ work, f.Works := by
  induction h generalizing post with
  | start => simp at he
  | step h hs ih =>
    rcases split_append_singleton he with ⟨rfl, rfl, _⟩ | ⟨post', _, hfs⟩
    · exact h.exists_obtained (hs.kept_of_works hf)
    · exact ih hfs

end Life

end Tenure

end LockTrace
