import LockTrace.Proofs.Threads.Rows

namespace LockTrace.Play

variable {V R σ α : Type} [Recorder R]

/-- What a worker does next, and the play afterwards: one rule for each kind of thing. -/
inductive Act (script : Script V σ) (p : Play V R σ) (t : ThreadId) : Play V R σ → Prop
  | begin {c : Call V} {next : Answer V → σ} {w : World V R}
      (hs : (p.world.thread t).stage = .idle) (hc : script t (p.places.get t) = .call c next)
      (hb : p.world.begin t c = some w) : Act script p t { p with world := w }
  | advance {pick : List Waiter → Option Waiter} {w : World V R}
      (ha : p.world.advance t pick = some w) : Act script p t { p with world := w }
  | collect {a : Answer V} {c : Call V} {next : Answer V → σ}
      (hs : (p.world.thread t).stage = .finished a)
      (hc : script t (p.places.get t) = .call c next) :
      Act script p t { p.move t (next a) with world := p.world.setStage t .idle }
  | pause {ms : Nat} {next : σ} (hs : (p.world.thread t).stage = .idle)
      (hc : script t (p.places.get t) = .pause ms next) : Act script p t (p.move t next)
  | note {n : Notice} {next : σ} (hs : (p.world.thread t).stage = .idle)
      (hc : script t (p.places.get t) = .note n next) :
      Act script p t { p.move t next with world := p.world.note n }
  | arrive {next : σ} (hs : (p.world.thread t).stage = .idle)
      (hc : script t (p.places.get t) = .arrive next) :
      Act script p t { p.move t next with arrivals := p.arrivals + 1 }
  | meet {parties : Nat} {next : σ} (hs : (p.world.thread t).stage = .idle)
      (hc : script t (p.places.get t) = .meet parties next) (ha : parties ≤ p.arrivals) :
      Act script p t (p.move t next)
  | stop {result : Except String Unit} (hs : (p.world.thread t).stage = .idle)
      (hc : script t (p.places.get t) = .stop result) (he : p.hasEnded t = false) :
      Act script p t { p with ended := p.ended ++ [(t, result)] }

section Act

variable {script : Script V σ} {p p' : Play V R σ} {t t' : ThreadId}
  {pick : List Waiter → Option Waiter}

theorem Act.of_act (h : p.act script t pick = some p') : Act script p t p' := by
  by_cases hs : (p.world.thread t).stage = .idle
  · cases hc : script t (p.places.get t) with
    | call c next =>
      rw [act_begin hs hc] at h
      obtain ⟨w, hb, rfl⟩ := Option.map_eq_some_iff.mp h
      exact .begin hs hc hb
    | pause ms next =>
      simp only [act, World.collect, hs, hc] at h
      cases h
      exact .pause hs hc
    | note n next =>
      simp only [act, World.collect, hs, hc] at h
      cases h
      exact .note hs hc
    | arrive next =>
      simp only [act, World.collect, hs, hc] at h
      cases h
      exact .arrive hs hc
    | meet parties next =>
      simp only [act, World.collect, hs, hc] at h
      split at h
      · cases h
        exact .meet hs hc (by assumption)
      · contradiction
    | stop result =>
      simp only [act, World.collect, hs, hc] at h
      split at h
      · contradiction
      · cases h
        exact .stop hs hc ((Bool.not_eq_true _).mp (by assumption))
  · by_cases hf : ∃ a, (p.world.thread t).stage = .finished a
    · obtain ⟨a, hf⟩ := hf
      cases hc : script t (p.places.get t) with
      | call c next =>
        rw [act_collect hf hc] at h
        cases h
        exact .collect hf hc
      | pause | note | arrive | meet | stop => simp [act, World.collect, hf, hc] at h
    · rw [act_advance hs fun a ha => hf ⟨a, ha⟩] at h
      obtain ⟨w, ha, rfl⟩ := Option.map_eq_some_iff.mp h
      exact .advance ha

/-- What a worker does leaves the others where they are, and at most wakes them. -/
theorem Act.others (h : Act script p t p') (ht : t' ≠ t) :
    p'.places.get t' = p.places.get t' ∧
      World.Roused (p.world.thread t') (p'.world.thread t') := by
  cases h with
  | begin _ _ hb => exact ⟨rfl, .inl (World.thread_begin_ne hb ht)⟩
  | advance ha => exact ⟨rfl, (World.step_of_advance ha).others ht⟩
  | collect =>
    exact ⟨Table.get_set_ne _ _ (Ne.symm ht), .inl (World.thread_setStage_ne _ (Ne.symm ht) _)⟩
  | pause | note | arrive | meet => exact ⟨Table.get_set_ne _ _ (Ne.symm ht), .inl rfl⟩
  | stop => exact ⟨rfl, .inl rfl⟩

/-- Where a thread can go on for some choice of a sleeper, it can for that of the first one. -/
theorem advance_eq_none {w : World V R} {t : ThreadId} (h : w.advance t List.head? = none)
    (pick : List Waiter → Option Waiter) : w.advance t pick = none := by
  cases hs : (w.thread t).stage with
  | notifying c all =>
    cases all with
    | true => simp [World.advance, hs] at h
    | false =>
      cases hw : w.waiters c with
      | nil => simp [World.advance, hs, hw] at h
      | cons x xs => simp [World.advance, hs, hw] at h
  | idle | finished | parked => simp only [World.advance, hs]
  | _ => simpa only [World.advance, hs] using h

theorem act_eq_none (h : p.act script t List.head? = none) (pick : List Waiter → Option Waiter) :
    p.act script t pick = none := by
  by_cases hi : (p.world.thread t).stage = .idle
  · rw [← h]
    cases hc : script t (p.places.get t) <;> simp only [act, World.collect, hi, hc]
  · by_cases hf : ∃ a, (p.world.thread t).stage = .finished a
    · obtain ⟨a, hf⟩ := hf
      rw [← h]
      cases hc : script t (p.places.get t) <;> simp only [act, World.collect, hf, hc]
    · have hf' := fun a ha => hf ⟨a, ha⟩
      rw [act_advance hi hf', Option.map_eq_none_iff] at h ⊢
      exact advance_eq_none h pick

omit [Recorder R] in
/-- Whoever has ended well when all that ended did. -/
theorem mem_ended (h : ∀ e ∈ p.ended, e.2 = .ok ()) (ht : p.hasEnded t = true) :
    (t, .ok ()) ∈ p.ended := by
  obtain ⟨e, he, rfl⟩ : ∃ e ∈ p.ended, e.1 = t := by simpa [hasEnded] using ht
  rw [← h e he]
  exact he

end Act

/-- Workers at their places, before anybody has done anything. Whoever is no worker rests. -/
def opening (place : ThreadId → σ) (rest : σ) (workers : List ThreadId) (value : V)
    (recorder : R) : Play V R σ where
  world := { mutexes := ⟨{ value }, []⟩, recorder }
  places := ⟨rest, workers.map fun t => (t, place t)⟩

omit [Recorder R] in
theorem places_opening (place : ThreadId → σ) (rest : σ) (workers : List ThreadId) (value : V)
    (recorder : R) (t : ThreadId) : (opening place rest workers value recorder).places.get t =
      if t ∈ workers then place t else rest := by
  rw [opening, Table.get]
  dsimp only
  induction workers with
  | nil => rfl
  | cons t' ts ih =>
    rw [List.map_cons, Table.find?]
    by_cases ht : t' = t
    · subst ht
      simp
    · rw [if_neg ht, ih]
      simp [Ne.symm ht]

/-- What workers come to by a script, in any order of moves, with what was marked on the way.
Sleepers may wake without being called, and between the moves the recorder may drift by itself. -/
inductive Chronicle (script : Script V σ) (workers : List ThreadId) (drift : R → R → Prop)
    (mark : Play V R σ → ThreadId → Play V R σ → Option α) (p₀ : Play V R σ) :
    List α → Play V R σ → Prop
  | start : Chronicle script workers drift mark p₀ [] p₀
  | act {xs : List α} {p p' : Play V R σ} (t : ThreadId) (ht : t ∈ workers)
      (pick : List Waiter → Option Waiter) (h : Chronicle script workers drift mark p₀ xs p)
      (ha : p.act script t pick = some p') :
      Chronicle script workers drift mark p₀ (xs ++ (mark p t p').toList) p'
  | rouse {xs : List α} {p : Play V R σ} {w : World V R} (t : ThreadId)
      (h : Chronicle script workers drift mark p₀ xs p) (hr : p.world.rouse t = some w) :
      Chronicle script workers drift mark p₀ xs { p with world := w }
  | drift {xs : List α} {p : Play V R σ} (r : R)
      (h : Chronicle script workers drift mark p₀ xs p) (hd : drift p.world.recorder r) :
      Chronicle script workers drift mark p₀ xs
        { p with world := { p.world with recorder := r } }

section Chronicle

variable {script : Script V σ} {workers : List ThreadId} {drift : R → R → Prop}
  {mark : Play V R σ → ThreadId → Play V R σ → Option α} {p₀ p p' : Play V R σ} {xs xs' : List α}

/-- Nobody else does anything. -/
theorem Chronicle.others (h₀ : ∀ t, p₀.world.thread t = {})
    (h : Chronicle script workers drift mark p₀ xs p) {t : ThreadId} (ht : t ∉ workers) :
    p.places.get t = p₀.places.get t ∧ (p.world.thread t).stage = .idle := by
  have idle {th th' : Thread V} (hr : World.Roused th th') (hs : th.stage = .idle) :
      th'.stage = .idle := by
    rcases hr with rfl | ⟨c, g, resume, he, _⟩
    · exact hs
    · rw [hs] at he
      contradiction
  induction h with
  | start => exact ⟨rfl, by rw [h₀ t]⟩
  | act t' ht' pick _ ha ih =>
    have hne : t ≠ t' := fun he => ht (he ▸ ht')
    obtain ⟨hp, hr⟩ := (Act.of_act ha).others hne
    exact ⟨hp.trans ih.1, idle hr ih.2⟩
  | rouse t' _ hr ih => exact ⟨ih.1, idle (World.roused_of_rouse hr t) ih.2⟩
  | drift r _ _ ih => exact ih

/-- Lets workers move in this order. Who slept first is woken first. -/
def rehearse? (script : Script V σ) (mark : Play V R σ → ThreadId → Play V R σ → Option α)
    (xs : List α) (p : Play V R σ) : List ThreadId → Option (List α × Play V R σ)
  | [] => some (xs, p)
  | t :: ts => (p.act script t List.head?).bind fun p' =>
    rehearse? script mark (xs ++ (mark p t p').toList) p' ts

/-- What is rehearsed is a chronicle. -/
theorem Chronicle.rehearse {ts : List ThreadId}
    (h : Chronicle script workers drift mark p₀ xs p) (ht : ∀ t ∈ ts, t ∈ workers)
    (hr : rehearse? script mark xs p ts = some (xs', p')) :
    Chronicle script workers drift mark p₀ xs' p' := by
  induction ts generalizing xs p with
  | nil =>
    cases hr
    exact h
  | cons t ts ih =>
    obtain ⟨p₁, ha, hr⟩ := Option.bind_eq_some_iff.mp hr
    exact ih (h.act t (ht t (List.mem_cons_self ..)) _ ha)
      (fun t' ht' => ht t' (List.mem_cons_of_mem t ht')) hr

end Chronicle

end LockTrace.Play
