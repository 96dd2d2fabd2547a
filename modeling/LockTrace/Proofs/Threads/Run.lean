import LockTrace.Proofs.Threads.Turn

namespace LockTrace.World

open Book (Course)

variable {V R : Type} [Recorder R]

/-- The worlds that threads come to, by any calls that are allowed and in any order of moves, with
the deeds that they did on the way. Sleepers may wake without being called, and between the moves
the recorder may drift by itself. -/
inductive Run (allowed : Call V → Prop) (drift : R → R → Prop) (w₀ : World V R) :
    List Deed → World V R → Prop
  | start : Run allowed drift w₀ [] w₀
  | begin {ds : List Deed} {w w' : World V R} (t : ThreadId) (call : Call V)
      (h : Run allowed drift w₀ ds w) (hc : allowed call) (hb : w.begin t call = some w') :
      Run allowed drift w₀ ds w'
  | advance {ds : List Deed} {w w' : World V R} (t : ThreadId)
      (pick : List Waiter → Option Waiter) (h : Run allowed drift w₀ ds w)
      (ha : w.advance t pick = some w') :
      Run allowed drift w₀ (ds ++ (w.deed? t w').toList) w'
  | rouse {ds : List Deed} {w w' : World V R} (t : ThreadId) (h : Run allowed drift w₀ ds w)
      (hr : w.rouse t = some w') : Run allowed drift w₀ ds w'
  | collect {ds : List Deed} {w w' : World V R} (t : ThreadId) (a : Answer V)
      (h : Run allowed drift w₀ ds w) (hc : w.collect t = some (a, w')) :
      Run allowed drift w₀ ds w'
  | drift {ds : List Deed} {w : World V R} (r : R) (h : Run allowed drift w₀ ds w)
      (hd : drift w.recorder r) : Run allowed drift w₀ ds { w with recorder := r }

/-- Something that happens to a thread. -/
inductive Happening (V : Type)
  | begin (call : Call V)
  | advance
  | rouse
  | collect

/-- The deeds that it makes, and the world afterwards. Who slept first is woken first. -/
def happen? (w : World V R) (t : ThreadId) : Happening V → Option (List Deed × World V R)
  | .begin call => (w.begin t call).map ([], ·)
  | .advance => (w.advance t List.head?).map fun w' => ((w.deed? t w').toList, w')
  | .rouse => (w.rouse t).map ([], ·)
  | .collect => (w.collect t).map fun r => ([], r.2)

/-- Computes a run. -/
def play? (w : World V R) : List (ThreadId × Happening V) → Option (List Deed × World V R)
  | [] => some ([], w)
  | (t, x) :: xs => (w.happen? t x).bind fun r => (r.2.play? xs).map fun r' => (r.1 ++ r'.1, r'.2)

theorem Run.happen {allowed : Call V → Prop} {drift : R → R → Prop} {w₀ w w' : World V R}
    {ds ds' : List Deed} {t : ThreadId} {x : Happening V} (h : Run allowed drift w₀ ds w)
    (hc : ∀ call, x = .begin call → allowed call) (hx : w.happen? t x = some (ds', w')) :
    Run allowed drift w₀ (ds ++ ds') w' := by
  cases x with
  | begin call =>
    obtain ⟨_, hb, he⟩ := Option.map_eq_some_iff.mp hx
    cases he
    rw [List.append_nil]
    exact .begin t call h (hc call rfl) hb
  | advance =>
    obtain ⟨_, ha, he⟩ := Option.map_eq_some_iff.mp hx
    cases he
    exact .advance t _ h ha
  | rouse =>
    obtain ⟨_, hr, he⟩ := Option.map_eq_some_iff.mp hx
    cases he
    rw [List.append_nil]
    exact .rouse t h hr
  | collect =>
    obtain ⟨⟨a, _⟩, ha, he⟩ := Option.map_eq_some_iff.mp hx
    cases he
    rw [List.append_nil]
    exact .collect t a h ha

/-- What is computed is a run. -/
theorem Run.play {allowed : Call V → Prop} {drift : R → R → Prop} {w₀ w w' : World V R}
    {ds ds' : List Deed} {xs : List (ThreadId × Happening V)} (h : Run allowed drift w₀ ds w)
    (hc : ∀ x ∈ xs, ∀ call, x.2 = .begin call → allowed call)
    (hx : w.play? xs = some (ds', w')) : Run allowed drift w₀ (ds ++ ds') w' := by
  induction xs generalizing ds ds' w with
  | nil =>
    cases hx
    rw [List.append_nil]
    exact h
  | cons x xs ih =>
    obtain ⟨⟨ds₁, w₁⟩, h₁, hx⟩ := Option.bind_eq_some_iff.mp hx
    obtain ⟨⟨ds₂, w₂⟩, h₂, he⟩ := Option.map_eq_some_iff.mp hx
    cases he
    rw [← List.append_assoc]
    exact ih (h.happen (hc x (List.mem_cons_self ..)) h₁)
      (fun x' hx' => hc x' (List.mem_cons_of_mem x hx')) h₂

theorem exists_run_of_play {allowed : Call V → Prop} {drift : R → R → Prop} {w₀ : World V R}
    {ds : List Deed} (xs : List (ThreadId × Happening V))
    (hx : (w₀.play? xs).map (·.1) = some ds)
    (hc : ∀ x ∈ xs, ∀ call, x.2 = .begin call → allowed call) : ∃ w, Run allowed drift w₀ ds w := by
  obtain ⟨⟨_, w⟩, hplay, rfl⟩ := Option.map_eq_some_iff.mp hx
  exact ⟨w, Run.start.play hc hplay⟩

/-- No thread has done anything yet, and no mutex is held. -/
structure Fresh (w : World V R) : Prop where
  threads : ∀ t, w.thread t = {}
  free : ∀ m, w.holder m = none

variable {e : EmitterId} {home : LockName → MutexId} {drift : R → R → Prop}
  {w₀ w : World V R} {ds : List Deed}

omit [Recorder R] in
theorem Fresh.agrees (h : w₀.Fresh) : Agrees e home w₀ fun _ => {} where
  fits t := by
    have hfit : Fits e home w₀.holder t {} [] {} :=
      ⟨rfl, rfl, .nil, by simp [Page.guards], by simp [Page.guards], by simp, by simp⟩
    rw [h.threads t]
    exact hfit
  rest t := by rw [h.threads t]
  traced t := by
    rw [h.threads t]
    intro e k name hs
    contradiction

omit [Recorder R] in
theorem turn_page (b : Book) (t : ThreadId) : b.turn t (b t) = b := Function.update_eq_self ..

/-- Every run of traced calls is the course of a book that agrees with the world. -/
theorem Run.exists_course (h₀ : w₀.Fresh) (h : Run (Call.Traced e home) drift w₀ ds w) :
    ∃ b, Course ds b ∧ Agrees e home w b := by
  induction h with
  | start => exact ⟨_, .start, h₀.agrees⟩
  | begin t call _ hc hb ih =>
    obtain ⟨b, hcourse, hagrees⟩ := ih
    have hagrees' := agrees_of_begin hagrees hc hb
    rw [turn_page] at hagrees'
    exact ⟨b, hcourse, hagrees'⟩
  | advance t pick _ ha ih =>
    obtain ⟨b, hcourse, hagrees⟩ := ih
    obtain ⟨p, hturn, hagrees'⟩ := turns_advance hagrees ha
    exact ⟨_, .turn t hcourse hturn, hagrees'⟩
  | rouse t _ hr ih =>
    obtain ⟨b, hcourse, hagrees⟩ := ih
    exact ⟨b, hcourse, agrees_of_rouse hagrees hr⟩
  | collect t a _ hc ih =>
    obtain ⟨b, hcourse, hagrees⟩ := ih
    have hagrees' := agrees_of_collect hagrees hc
    rw [turn_page] at hagrees'
    exact ⟨b, hcourse, hagrees'⟩
  | drift r _ _ ih =>
    obtain ⟨b, hcourse, hagrees⟩ := ih
    exact ⟨b, hcourse, hagrees.fits, hagrees.rest, hagrees.traced⟩

end LockTrace.World
