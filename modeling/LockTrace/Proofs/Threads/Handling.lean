import LockTrace.Proofs.Threads.Stretch

namespace LockTrace

variable {V R : Type}

/-- What a thread has in hand of a mutex that it did not have: nothing yet, the mutex, or nothing
any more. What it got is remembered as it was found. -/
inductive Hand (V : Type)
  | empty
  | full (found : Mutex V)
  | emptied (found : Mutex V)

namespace World

variable {w w' w₁ w₂ : World V R} {t : ThreadId} {m : MutexId} {hand : Hand V} {found : Mutex V}
  {xs : List (Moment V R)}

/-- What the moments from a world on do to a mutex in the hands of one thread. The thread has it
just if it had it at first, until one of its moves takes it when nobody has it. From then on nothing
about it changes, until another move of the thread leaves it just as it had been found. After that
the thread does not have it again. -/
inductive Handling (w : World V R) (t : ThreadId) (m : MutexId) :
    Hand V → List (Moment V R) → World V R → Prop
  | start {w₁ : World V R} (hw : w₁.mutex m = w.mutex m) : Handling w t m .empty [] w₁
  | apart {xs : List (Moment V R)} {w₁ w₂ : World V R} (own : Bool)
      (h : Handling w t m .empty xs w₁) (hw : w₂.holder m = some t ↔ w₁.holder m = some t) :
      Handling w t m .empty (xs ++ [⟨own, w₁, w₂⟩]) w₂
  | take {xs : List (Moment V R)} {w₁ w₂ : World V R} (h : Handling w t m .empty xs w₁)
      (hf : w₁.holder m = none) (hw : w₂.mutex m = { w₁.mutex m with holder := some t }) :
      Handling w t m (.full (w₁.mutex m)) (xs ++ [⟨true, w₁, w₂⟩]) w₂
  | keep {xs : List (Moment V R)} {w₁ w₂ : World V R} {found : Mutex V} (own : Bool)
      (h : Handling w t m (.full found) xs w₁) (hw : w₂.mutex m = w₁.mutex m) :
      Handling w t m (.full found) (xs ++ [⟨own, w₁, w₂⟩]) w₂
  | giveBack {xs : List (Moment V R)} {w₁ w₂ : World V R} {found : Mutex V}
      (h : Handling w t m (.full found) xs w₁) (hw : w₂.mutex m = found) :
      Handling w t m (.emptied found) (xs ++ [⟨true, w₁, w₂⟩]) w₂
  | after {xs : List (Moment V R)} {w₁ w₂ : World V R} {found : Mutex V} (own : Bool)
      (h : Handling w t m (.emptied found) xs w₁) (hw : w₂.holder m ≠ some t) :
      Handling w t m (.emptied found) (xs ++ [⟨own, w₁, w₂⟩]) w₂

/-- How it shows in a world what a thread has in hand. -/
def InHand (w : World V R) (t : ThreadId) (m : MutexId) (w' : World V R) : Hand V → Prop
  | .empty => w'.holder m = some t ↔ w.holder m = some t
  | .full found => w.holder m ≠ some t ∧ found.holder = none ∧
      w'.mutex m = { found with holder := some t }
  | .emptied found => w.holder m ≠ some t ∧ found.holder = none ∧ w'.holder m ≠ some t

namespace Handling

theorem inHand (h : Handling w t m hand xs w') : w.InHand t m w' hand := by
  induction h with
  | start hw => exact iff_of_eq (congrArg (·.holder = some t) hw)
  | apart own _ hw ih => exact hw.trans ih
  | take _ hf hw ih =>
    refine ⟨fun hm => ?_, hf, hw⟩
    have hm' := Iff.mpr ih hm
    rw [hf] at hm'
    contradiction
  | keep own _ hw ih => exact ⟨ih.1, ih.2.1, hw.trans ih.2.2⟩
  | @giveBack xs w₁ w₂ found _ hw ih =>
    refine ⟨ih.1, ih.2.1, ?_⟩
    simp [holder, hw, ih.2.1]
  | after own _ hw ih => exact ⟨ih.1, ih.2.1, hw⟩

theorem holder_of_full (h : Handling w t m (.full found) xs w') : w'.holder m = some t := by
  rw [holder, h.inHand.2.2]

/-- A thread that has nothing in hand has the mutex just if it had it at first. -/
theorem holder_of_not_full (h : Handling w t m hand xs w') (hh : ∀ found, hand ≠ .full found) :
    w'.holder m = some t ↔ w.holder m = some t := by
  cases hand with
  | empty => exact h.inHand
  | full found => exact absurd rfl (hh found)
  | emptied found => exact iff_of_false h.inHand.2.2 h.inHand.1

/-- A move that does nothing to the mutex changes nothing in hand. -/
theorem still (h : Handling w t m hand xs w₁) (own : Bool) (hw : w₂.mutex m = w₁.mutex m) :
    Handling w t m hand (xs ++ [⟨own, w₁, w₂⟩]) w₂ := by
  have hholder : w₂.holder m = w₁.holder m := congrArg Mutex.holder hw
  cases hand with
  | empty => exact .apart own h (by rw [hholder])
  | full => exact .keep own h hw
  | emptied => exact .after own h (hholder ▸ h.inHand.2.2)

/-- Neither does what happens around the thread. -/
theorem beside (h : Handling w t m hand xs w₁) (hw : Spared t w₁ w₂) :
    Handling w t m hand (xs ++ [⟨false, w₁, w₂⟩]) w₂ := by
  cases hand with
  | empty => exact .apart false h (hw.holder_iff m)
  | full => exact .keep false h (hw.mutex m (.inl h.holder_of_full))
  | emptied => exact .after false h (mt (hw.holder_iff m).mp h.inHand.2.2)

/-- Whoever lets the mutex go without a panic leaves it as it was found. -/
theorem mutex_free (h : Handling w t m (.full found) xs w') :
    (w'.free m false).mutex m = found := by
  obtain ⟨-, hfound, hnow⟩ := h.inHand
  simp only [free, mutex_setMutex, if_true, hnow, Bool.false_and, Bool.or_false]
  rw [← hfound]

end Handling

/-- Whoever has an answer takes no mutex. -/
theorem Stretch.handling_of_finished [Recorder R] {drift : R → R → Prop} {w₀ : World V R}
    {hist : List (ThreadId × Guard × Feat V)} {a : Answer V} (h₀ : w₀.Fresh)
    (h : Annals drift w₀ hist w₁) (ha : (w₁.thread t).stage = .finished a)
    (hs : Stretch drift t w₁ xs w') (hw : w₁.mutex m = w.mutex m) :
    Handling w t m .empty xs w' := by
  refine (Stretch.invariant (P := fun xs w' => w'.thread t = w₁.thread t ∧
    Handling w t m .empty xs w') h₀ h ?_ ?_ ?_ hs).2
  · exact ⟨rfl, .start hw⟩
  · rintro xs w' w'' hist' - ⟨ht, -⟩ hstep
    rw [ht, ha] at hstep
    contradiction
  · rintro xs w' w'' hspared ⟨ht, hx⟩
    refine ⟨?_, hx.beside hspared⟩
    rw [← ht]
    apply eq_of_roused hspared.thread
    simp [ht, ha]

end World

end LockTrace
