import LockTrace.Proofs.Workload.Standstill
import LockTrace.Proofs.Workload.Telling
import LockTrace.Workload.Counter

namespace LockTrace.Counter

open Function (update update_self update_of_ne)
open Plot (Turn Custody)

/-- The name under which the lock is recorded. -/
def name : LockName := ⟨lockName, by decide⟩

/-- The hold of the lock. -/
def pass : Guard := ⟨0, name, 0⟩

/-- The records of one round. -/
def lap : List (Kind × LockName) := [(.attempt, name), (.acquired, name), (.released, name)]

/-- The records of a number of rounds. -/
def laps (n : Nat) : List (Kind × LockName) := (List.replicate n lap).flatten

theorem laps_succ (n : Nat) : laps (n + 1) = laps n ++ lap := by
  rw [laps, List.replicate_succ', List.flatten_concat]
  rfl

theorem countP_laps (f : Kind × LockName → Bool) (n : Nat) :
    (laps n).countP f = n * lap.countP f := by
  rw [laps, List.countP_flatten, List.map_replicate, List.sum_replicate_nat]

/-- A worker keeps the lock from its increment until it leaves. -/
def keeps : Place → Slot → Option Guard
  | .adding _ | .telling _ _ | .holding _ | .leaving _ => only pass
  | .locking _ | .resting _ | .ended _ => fun _ => none

theorem keeps_eq_some {s : Place} {slot : Slot} {g : Guard} (h : keeps s slot = some g) :
    slot = 0 ∧ g = pass := by
  cases s with
  | adding | telling | holding | leaving => exact only_eq_some h
  | locking | resting | ended => contradiction

/-- What a worker has recorded by the time it comes to a place. No round fails. -/
def said : Place → List (Kind × LockName) → Prop
  | .locking n, rs => n ≤ rounds ∧ rs = laps (rounds - n)
  | .adding n, rs | .telling n _, rs | .holding n, rs | .leaving n, rs =>
    n < rounds ∧ rs = laps (rounds - (n + 1)) ++ [(.attempt, name), (.acquired, name)]
  | .resting n, rs => n < rounds ∧ rs = laps (rounds - n)
  | .ended _, _ => False

theorem lap_taken {n : Nat} (hn : n < rounds) :
    laps (rounds - (n + 1)) ++ [(.attempt, name), (.acquired, name)] ++ [(.released, name)] =
      laps (rounds - n) := by
  rw [show rounds - n = rounds - (n + 1) + 1 by omega, laps_succ, List.append_assoc]
  rfl

def routine : Routine Nat Place where
  emitter := 0
  mutexOf _ := 0
  keeps _ := keeps
  said _ := said
  script := script
  allows t s := by
    cases s with
    | locking n =>
      cases n with
      | zero => exact fun _ => rfl
      | succ n =>
        refine ⟨rfl, rfl, name, by decide, rfl, ?_⟩
        rintro rs ⟨hn, rfl⟩
        exact ⟨hn, rfl⟩
    | adding n => exact ⟨⟨pass, only_zero pass⟩, fun _ => ⟨rfl, fun _ => id⟩⟩
    | telling n v | holding n => exact ⟨rfl, fun _ => id⟩
    | leaving n =>
      refine ⟨pass, only_zero pass, (update_only pass).symm, ?_⟩
      rintro rs ⟨hn, rfl⟩
      exact ⟨hn, lap_taken hn⟩
    | resting n => exact ⟨rfl, fun _ ⟨hn, he⟩ => ⟨hn.le, he⟩⟩
    | ended result => exact fun _ => rfl
  through t s slot g hg := by rw [(keeps_eq_some hg).2]; rfl

theorem modest : routine.Modest where
  one t s slot slot' g g' hg hg' := (keeps_eq_some hg).1.trans (keeps_eq_some hg').1.symm
  bare t s e m label slot next hc slot' := by
    cases s with
    | locking | resting | ended => rfl
    | adding | telling | holding | leaving => cases hc
  busy t s parties next := by
    cases s with
    | locking n => cases n <;> exact nofun
    | adding | telling | holding | leaving | resting | ended => exact nofun

theorem not_waitWhile (t : ThreadId) (s : Place) {c : CondvarId} {slot : Slot}
    {condition : Condition Nat} {next : Answer Nat → Place} :
    script t s ≠ .call (.waitWhile c slot condition) next := by
  cases s with
  | locking n => cases n <;> exact nofun
  | adding | telling | holding | leaving | resting | ended => exact nofun

theorem traced {t : ThreadId} {s : Place} {c : Call Nat} {next : Answer Nat → Place}
    (hc : script t s = .call c next) : c.Traced 0 fun _ => 0 := by
  cases s with
  | locking n =>
    cases n with
    | zero => cases hc
    | succ n =>
      cases hc
      exact ⟨rfl, fun _ _ => rfl⟩
  | adding | leaving =>
    cases hc
    trivial
  | telling | holding | resting | ended => cases hc

/-- The increments that a worker still has to make. -/
def left : Place → Progress Nat → Nat
  | .adding n, .ahead => n + 1
  | .locking n, _ | .adding n, _ | .telling n _, _ | .holding n, _ | .leaving n, _
  | .resting n, _ => n
  | .ended _, _ => 0

/-- The value that a worker has made of the counter and not told yet. -/
def untold : Place → Progress Nat → Option Nat
  | .adding _, .done (.value v) => some v
  | .telling _ v, _ => some v
  | _, _ => none

/-- What these workers have told in turn: the values from one on, none left out. -/
def tale (ts : List ThreadId) : List Notice := ts.mapIdx fun i t => incremented t (i + 1)

theorem tale_concat (ts : List ThreadId) (t : ThreadId) :
    tale (ts ++ [t]) = tale ts ++ [incremented t (ts.length + 1)] := List.mapIdx_concat

/-- The counter, and what was told of it, while workers count. Whoever has counted and not told it
yet has the latest value. -/
structure Tally (workers : List ThreadId) (b : Plot Nat Place) : Prop where
  whole : b.value 0 + ∑ t ∈ workers.toFinset, left (b.place t) (b.progress t) =
    rounds * workers.toFinset.card
  told : ∃ ts, (∀ t ∈ ts, t ∈ workers) ∧ b.notices = tale ts ∧
    ((∀ t, untold (b.place t) (b.progress t) = none) ∧ ts.length = b.value 0 ∨
      ∃ t, untold (b.place t) (b.progress t) = some (b.value 0) ∧ ts.length + 1 = b.value 0 ∧
        ∀ t' ≠ t, untold (b.place t') (b.progress t') = none)

section Tally

variable {workers : List ThreadId} {b b' : Plot Nat Place} {t : ThreadId}

/-- Only the holder of the lock has a value that it has not told. -/
theorem holder_of_untold (hc : b.Custody routine) {v : Nat}
    (hu : untold (b.place t) (b.progress t) = some v) : b.holder 0 = some t := by
  refine (hc.holder t 0).mpr ⟨0, pass, ?_, rfl⟩
  rw [Plot.held]
  generalize b.place t = s, b.progress t = pr at hu
  cases s with
  | adding n =>
    cases pr with
    | done a =>
      cases a with
      | value v => exact only_zero pass
      | _ => contradiction
    | ahead | dozing | parked | roused => contradiction
  | telling n v => cases pr <;> exact only_zero pass
  | locking | holding | leaving | resting | ended => contradiction

/-- Nobody counts, and nobody tells anything. -/
theorem Tally.same (h : Tally workers b) (hv : b'.value 0 = b.value 0)
    (hn : b'.notices = b.notices)
    (hl : ∀ t, left (b'.place t) (b'.progress t) = left (b.place t) (b.progress t))
    (hu : ∀ t, untold (b'.place t) (b'.progress t) = untold (b.place t) (b.progress t)) :
    Tally workers b' := by
  refine ⟨?_, ?_⟩
  · simp only [hl, hv]
    exact h.whole
  · simp only [hu, hv, hn]
    exact h.told

/-- A worker goes on without counting or telling anything. -/
theorem Tally.goes (h : Tally workers b) {s : Place} {pr : Progress Nat}
    (hv : b'.value 0 = b.value 0) (hn : b'.notices = b.notices)
    (hpl : b'.place = update b.place t s) (hpr : b'.progress = update b.progress t pr)
    (hl : left s pr = left (b.place t) (b.progress t))
    (hu : untold s pr = untold (b.place t) (b.progress t)) : Tally workers b' := by
  have stays {α : Type} {f : Place → Progress Nat → α} (hf : f s pr = f (b.place t) (b.progress t))
      (t' : ThreadId) : f (b'.place t') (b'.progress t') = f (b.place t') (b.progress t') := by
    rw [hpl, hpr]
    by_cases ht : t' = t
    · rw [ht, update_self, update_self, hf]
    · rw [update_of_ne ht, update_of_ne ht]
  exact h.same hv hn (stays hl) (stays hu)

/-- A worker counts. -/
theorem Tally.count (h : Tally workers b) (hc : b.Custody routine) (ht : t ∈ workers) {n : Nat}
    (hs : b.place t = .adding n) (hp : b.progress t = .ahead)
    (hv : b'.value 0 = b.value 0 + 1) (hn : b'.notices = b.notices) (hpl : b'.place = b.place)
    (hpr : b'.progress = update b.progress t (.done (.value (b.value 0 + 1)))) :
    Tally workers b' := by
  have hholds : b.holder 0 = some t := by
    refine (hc.holder t 0).mpr ⟨0, pass, ?_, rfl⟩
    rw [Plot.held, hs, hp]
    exact only_zero pass
  have hnone (t' : ThreadId) : untold (b.place t') (b.progress t') = none := by
    by_contra hne
    obtain ⟨v, hu⟩ := Option.ne_none_iff_exists'.mp hne
    have ht' := holder_of_untold hc hu
    rw [hholds] at ht'
    cases ht'
    rw [hs, hp] at hu
    contradiction
  refine ⟨?_, ?_⟩
  · have hleft : (fun t' => left (b'.place t') (b'.progress t')) =
        update (fun t' => left (b.place t') (b.progress t')) t n := by
      funext t'
      by_cases ht' : t' = t
      · rw [hpl, hpr, ht', update_self, update_self, hs]
        rfl
      · rw [hpl, hpr, update_of_ne ht', update_of_ne ht']
    have hwhole := h.whole
    rw [Finset.sum_eq_add_sum_sdiff_singleton_of_mem (List.mem_toFinset.mpr ht), hs, hp] at hwhole
    rw [hleft, Finset.sum_update_of_mem (List.mem_toFinset.mpr ht), hv, ← hwhole, left]
    omega
  · obtain ⟨ts, hts, hnotices, ⟨_, hlength⟩ | ⟨t', hu, _⟩⟩ := h.told
    · refine ⟨ts, hts, hn.trans hnotices, .inr ⟨t, ?_, by rw [hv, hlength], fun t' ht' => ?_⟩⟩
      · rw [hpl, hpr, update_self, hs, hv]
        rfl
      · rw [hpl, hpr, update_of_ne ht']
        exact hnone t'
    · rw [hnone t'] at hu
      contradiction

/-- A worker tells the value that it has made. -/
theorem Tally.tell (h : Tally workers b) (ht : t ∈ workers) {n v : Nat}
    (hs : b.place t = .telling n v) (hv : b'.value 0 = b.value 0)
    (hn : b'.notices = b.notices ++ [incremented t v])
    (hpl : b'.place = update b.place t (.holding n)) (hpr : b'.progress = b.progress) :
    Tally workers b' := by
  have hmine : untold (b.place t) (b.progress t) = some v := by
    rw [hs]
    cases b.progress t <;> rfl
  refine ⟨?_, ?_⟩
  · have hleft (t' : ThreadId) : left (b'.place t') (b'.progress t') =
        left (b.place t') (b.progress t') := by
      rw [hpl, hpr]
      by_cases ht' : t' = t
      · rw [ht', update_self, hs]
        cases b.progress t <;> rfl
      · rw [update_of_ne ht']
    simp only [hleft, hv]
    exact h.whole
  · obtain ⟨ts, hts, hnotices, ⟨hnone, _⟩ | ⟨t', hu, hlength, hothers⟩⟩ := h.told
    · rw [hnone t] at hmine
      contradiction
    · obtain rfl : t = t' := by
        by_contra hne
        rw [hothers t hne] at hmine
        contradiction
      rw [hmine, Option.some_inj] at hu
      refine ⟨ts ++ [t], ?_, ?_, .inl ⟨fun t' => ?_, ?_⟩⟩
      · exact List.forall_mem_append.mpr ⟨hts, List.forall_mem_singleton.mpr ht⟩
      · rw [hn, hnotices, tale_concat, hlength, hu]
      · rw [hpl, hpr]
        by_cases ht' : t' = t
        · rw [ht', update_self]
          rfl
        · rw [update_of_ne ht']
          exact hothers t' ht'
      · rw [List.length_append, List.length_singleton, hlength, hv]

/-- Whatever a worker does, the tally stays right. -/
theorem Tally.turn (h : Tally workers b) (hc : b.Custody routine) (ht : t ∈ workers)
    {st : Stage Nat} (hturn : b.Turn routine t (script t (b.place t)) st b') :
    Tally workers b' := by
  have stays : b.place = update b.place t (b.place t) := (Function.update_eq_self ..).symm
  have rests : b.progress = update b.progress t (b.progress t) := (Function.update_eq_self ..).symm
  cases hs : b.place t with
  | locking n =>
    cases n with
    | zero =>
      rw [hs] at hturn
      cases hturn with
      | quiet => exact h
      | stop => exact h.same rfl rfl (fun _ => rfl) fun _ => rfl
    | succ n =>
      rw [hs] at hturn
      cases hturn with
      | quiet => exact h
      | lock => exact h.goes rfl rfl stays rfl (by rw [hs]; rfl) (by rw [hs]; rfl)
      | @collect _ a _ hp ha =>
        cases a with
        | ok => exact h.goes rfl rfl rfl rfl (by rw [hs]; rfl) (by rw [hs, hp]; rfl)
        | _ => exact ha.elim
  | adding n =>
    rw [hs] at hturn
    cases hturn with
    | quiet => exact h
    | access hg hp =>
      obtain ⟨_, rfl⟩ := keeps_eq_some hg
      have hv : update b.value 0 (b.value 0 + 1) 0 = b.value 0 + 1 := update_self ..
      exact h.count hc ht hs hp hv rfl rfl rfl
    | @collect _ a _ hp ha =>
      cases a with
      | value v => exact h.goes rfl rfl rfl rfl (by rw [hs, hp]; rfl) (by rw [hs, hp]; rfl)
      | _ => exact ha.elim
  | telling n v =>
    rw [hs] at hturn
    cases hturn with
    | quiet => exact h
    | note => exact h.tell ht hs rfl rfl rfl rfl
  | holding n =>
    rw [hs] at hturn
    cases hturn with
    | quiet => exact h
    | pause hp => exact h.goes rfl rfl rfl rests (by rw [hs, hp]; rfl) (by rw [hs, hp]; rfl)
  | leaving n =>
    rw [hs] at hturn
    cases hturn with
    | quiet => exact h
    | leave => exact h.goes rfl rfl stays rfl (by rw [hs]; rfl) (by rw [hs]; rfl)
    | @collect _ a _ hp ha => exact h.goes rfl rfl rfl rfl (by rw [hs]; rfl) (by rw [hs]; rfl)
  | resting n =>
    rw [hs] at hturn
    cases hturn with
    | quiet => exact h
    | pause hp => exact h.goes rfl rfl rfl rests (by rw [hs, hp]; rfl) (by rw [hs, hp]; rfl)
  | ended result =>
    rw [hs] at hturn
    cases hturn with
    | quiet => exact h
    | stop => exact h.same rfl rfl (fun _ => rfl) fun _ => rfl

end Tally

/-- Whoever does not hold the lock has recorded whole rounds, and asks for the lock at most. -/
theorem own_of_free {t : ThreadId} {s : Place} {st : Stage Nat} {guards : Slot → List Guard}
    {own : List (Kind × LockName)} (h : routine.Stands t s st guards own)
    (hfree : routine.holds t s st.progress 0 = none) :
    left s st.progress ≤ rounds ∧
      ∃ rs ∈ [[], [(.attempt, name)]], own = laps (rounds - left s st.progress) ++ rs := by
  obtain ⟨gs, rs₀, rs₁, hsaid, hwithin, rfl, _⟩ := h
  have hname {l : LockName} (hl : LockName.ofString? lockName = some l) : l = name :=
    (Option.some_inj.mp hl).symm
  cases s with
  | locking n =>
    obtain ⟨hn, rfl⟩ := hsaid
    cases n with
    | zero =>
      cases hwithin
      exact ⟨hn, [], by simp, rfl⟩
    | succ n =>
      cases hwithin with
      | idle | attempting => exact ⟨hn, [], by simp, rfl⟩
      | acquiring hl =>
        obtain rfl := hname hl
        exact ⟨hn, [(.attempt, name)], by simp, rfl⟩
      | recording | locked => cases hfree
  | adding n | telling n v | holding n =>
    cases hwithin
    all_goals cases hfree
  | leaving n =>
    obtain ⟨hn, rfl⟩ := hsaid
    cases hwithin with
    | idle | leaving | freeing => cases hfree
    | left hg =>
      cases hg
      refine ⟨hn.le, [], by simp, ?_⟩
      rw [List.append_nil]
      exact lap_taken hn
  | resting n =>
    obtain ⟨hn, rfl⟩ := hsaid
    cases hwithin
    exact ⟨hn.le, [], by simp, rfl⟩
  | ended => exact hsaid.elim

/-- Such a worker has recorded each kind but the attempts once for each round that it has made. -/
theorem countP_of_free {t : ThreadId} {s : Place} {st : Stage Nat} {guards : Slot → List Guard}
    {own : List (Kind × LockName)} (h : routine.Stands t s st guards own)
    (hfree : routine.holds t s st.progress 0 = none) {k : Kind} (hk : k ≠ .attempt)
    (hlap : lap.countP (fun r => r.1 = k ∧ r.2 = name) = 1) :
    own.countP (fun r => r.1 = k ∧ r.2 = name) = rounds - left s st.progress := by
  obtain ⟨_, rs, hrs, hown⟩ := own_of_free h hfree
  -- whoever asks for the lock has not got it yet
  have hasked : rs.countP (fun r => r.1 = k ∧ r.2 = name) = 0 := by
    rcases List.mem_pair.mp hrs with rfl | rfl
    · rfl
    · exact List.countP_eq_zero.mpr (by simp [Ne.symm hk])
  rw [hown, List.countP_append, hasked, countP_laps, hlap, Nat.mul_one]
  rfl

/-- Whoever is to stop has made all rounds. -/
theorem own_of_stop {t : ThreadId} {s : Place} {st : Stage Nat} {guards : Slot → List Guard}
    {own : List (Kind × LockName)} (h : routine.Stands t s st guards own)
    {result : Except String Unit} (hs : script t s = .stop result) :
    s = .locking 0 ∧ result = .ok () ∧ own = laps rounds := by
  obtain ⟨gs, rs₀, rs₁, hsaid, hwithin, rfl, _⟩ := h
  cases s with
  | locking n =>
    cases n with
    | zero =>
      cases hs
      cases hwithin
      obtain ⟨_, rfl⟩ := hsaid
      exact ⟨rfl, rfl, List.append_nil _⟩
    | succ n => cases hs
  | ended => exact hsaid.elim
  | adding | telling | holding | leaving | resting => cases hs

/-- While the lock is free nobody has a hold of it. -/
theorem held_eq_none {b : Plot Nat Place} (hc : b.Custody routine) (hfree : b.holder 0 = none)
    (t : ThreadId) (slot : Slot) : b.held routine t slot = none := by
  by_contra hne
  obtain ⟨g, hg⟩ := Option.ne_none_iff_exists'.mp hne
  obtain ⟨s, hs⟩ := Routine.keeps_of_holds hg
  have hholder := (hc.holder t g.mutex).mpr ⟨slot, g, hg, rfl⟩
  rw [(keeps_eq_some hs).2, show pass.mutex = 0 from rfl, hfree] at hholder
  contradiction

/-- While the lock is free the counter is what the workers have done of their rounds. -/
theorem Tally.value_eq {workers : List ThreadId} {b : Plot Nat Place} (h : Tally workers b)
    (hl : ∀ t, left (b.place t) (b.progress t) ≤ rounds) :
    b.value 0 = ∑ t ∈ workers.toFinset, (rounds - left (b.place t) (b.progress t)) := by
  have hall : ∑ t ∈ workers.toFinset, (rounds - left (b.place t) (b.progress t)) +
      ∑ t ∈ workers.toFinset, left (b.place t) (b.progress t) = workers.toFinset.card * rounds := by
    rw [← Finset.sum_add_distrib]
    exact Finset.sum_const_nat fun t _ => Nat.sub_add_cancel (hl t)
  have hwhole := h.whole
  rw [Nat.mul_comm] at hwhole
  omega

/-- What was told is the beginning of what was counted, and while the lock is free it is all. -/
theorem Tally.exists_tale {workers : List ThreadId} {b : Plot Nat Place} (h : Tally workers b)
    (hc : b.Custody routine) : ∃ ts, (∀ t ∈ ts, t ∈ workers) ∧ b.notices = tale ts ∧
      ts.length ≤ b.value 0 ∧ (b.holder 0 = none → ts.length = b.value 0) := by
  obtain ⟨ts, hts, hnotices, ⟨_, hlength⟩ | ⟨t, hu, hlength, _⟩⟩ := h.told
  · exact ⟨ts, hts, hnotices, hlength.le, fun _ => hlength⟩
  · refine ⟨ts, hts, hnotices, (Nat.le_succ _).trans hlength.le, fun hfree => ?_⟩
    rw [holder_of_untold hc hu] at hfree
    contradiction

section Run

variable {workers : List ThreadId} {o : Outlet} {d : Desk} {ds : List Deed}
  {p : Play Nat Desk Place}

theorem opens (hc : d.Captures 0 o [] none) : Play.Opens routine
    (fun d => ∃ es, d.Captures 0 o es none)
    (Play.opening (fun _ => start) start workers 0 d) := by
  have hstart : (∀ slot, keeps start slot = none) ∧ said start [] := ⟨fun _ => rfl, le_rfl, rfl⟩
  exact Play.opens_opening ⟨[], hc⟩ (fun _ => hstart) fun _ => hstart

/-- At the beginning all increments are ahead. -/
theorem tally_opening (workers : List ThreadId) (d : Desk) :
    Tally workers (Play.opening (fun _ => start) start workers 0 d).plot := by
  have hplace (t : ThreadId) :
      (Play.opening (fun _ => start) start workers 0 d).plot.place t = start := by
    change (Play.opening _ _ _ _ d).places.get t = start
    rw [Play.places_opening, ite_self]
  refine ⟨?_, [], List.forall_mem_nil _, rfl, .inl ⟨fun t => ?_, rfl⟩⟩
  · simp only [hplace]
    change 0 + ∑ t ∈ workers.toFinset, rounds = _
    rw [Nat.zero_add, Nat.mul_comm]
    exact Finset.sum_const_nat fun _ _ => rfl
  · rw [hplace]
    rfl

/-- Whatever the order of moves: while nobody has the lock, the counter is the number of rounds
that were completed, and what was told are the values from one on, none left out and none twice.
Whoever has ended has made all its rounds and no others, and nobody is stuck before. When all have
ended, the counter is five times the number of workers, and so are the records of each kind. -/
theorem no_update_lost (hn : workers.Nodup) (hc : d.Captures 0 o [] none)
    (h : Play.Chronicle script workers Desk.Ticks Play.deed?
      (Play.opening (fun _ => start) start workers 0 d) ds p) :
    ∃ es, Check.events? (p.world.recorder.bytes o) = some es ∧
      Function.Injective p.world.title ∧
      (p.world.holder 0 = none →
        (p.world.mutex 0).value = es.countP (fun e => e.kind = .released ∧ e.lock = name) ∧
        (p.world.mutex 0).value = es.countP (fun e => e.kind = .acquired ∧ e.lock = name)) ∧
      (∃ ts : List ThreadId, (∀ t ∈ ts, t ∈ workers) ∧
        p.world.notices = ts.mapIdx (fun i t => incremented t (i + 1)) ∧
        ts.length ≤ (p.world.mutex 0).value ∧
        (p.world.holder 0 = none → ts.length = (p.world.mutex 0).value)) ∧
      (∀ e ∈ p.ended, e.2 = .ok () ∧ recordsOf (p.world.title e.1) es = laps 5) ∧
      ((∀ t ∈ workers, ∀ pick, p.act script t pick = none) →
        ∀ t ∈ workers, (t, .ok ()) ∈ p.ended) ∧
      ((∀ t ∈ workers, p.hasEnded t = true) →
        (p.world.mutex 0).value = 5 * workers.length ∧
        (∀ k ∈ [Kind.attempt, .acquired, .released],
          es.countP (fun e => e.kind = k ∧ e.lock = name) = 5 * workers.length) ∧
        es.length = 3 * (5 * workers.length)) := by
  have h₀ : Play.Opens routine _ (Play.opening (fun _ => start) start workers 0 d) := opens hc
  have hr := Desk.keeps_captures 0 o
  have hd := fun a b => Desk.captures_ticks (e := 0) (o := o) a b
  have hf := Play.Chronicle.follows h₀ hr hd h
  have htally : Tally workers p.plot := Play.Chronicle.plot_keeps h₀ hr hd
    (tally_opening workers d) (fun b b' t s ht hc hturn hi => hi.turn hc ht hturn) h
  have hcard : workers.toFinset.card = workers.length := List.toFinset_card_of_nodup hn
  obtain ⟨es, htells⟩ := Play.Chronicle.exists_tells h₀ hr hd hc (fun _ _ _ _ => traced) h
  have hended : ∀ e ∈ p.ended, p.places.get e.1 = .locking 0 ∧ e.2 = .ok () ∧
      own Deed.told? e.1 ds = laps rounds := fun e he =>
    own_of_stop (hf.stands e.1) (Play.Chronicle.stops h₀ hr hd rfl h e he)
  have hhas {t : ThreadId} (ht : p.hasEnded t = true) : (t, .ok ()) ∈ p.ended :=
    Play.mem_ended (fun e he => (hended e he).2.1) ht
  refine ⟨es, htells.events, htells.injective, fun hfree => ?_, ?_, fun e he => ?_,
    fun hstuck t ht => ?_, fun hall => ?_⟩
  · have hfree' := held_eq_none hf.custody hfree
    have hvalue := htally.value_eq fun t => (own_of_free (hf.stands t) (hfree' t 0)).1
    have hcount (k : Kind) (hk : k ≠ .attempt)
        (hlap : lap.countP (fun r => r.1 = k ∧ r.2 = name) = 1) :
        (p.world.mutex 0).value = es.countP (fun e => e.kind = k ∧ e.lock = name) := by
      rw [htells.countP fun r => r.1 = k ∧ r.2 = name]
      exact hvalue.trans (Finset.sum_congr rfl fun t _ =>
        (countP_of_free (hf.stands t) (hfree' t 0) hk hlap).symm)
    exact ⟨hcount .released (by decide) (by decide), hcount .acquired (by decide) (by decide)⟩
  · exact htally.exists_tale hf.custody
  · exact ⟨(hended e he).2.1, (htells.records e.1).trans (hended e he).2.2⟩
  · rcases (Play.Chronicle.settled h₀ hr hd modest h hf hstuck).2 t ht with he | hp
    · exact hhas he
    · obtain ⟨_, _, _, _, hwait, _⟩ := hp
      exact absurd hwait (not_waitWhile t _)
  · have hplace (t : ThreadId) (ht : t ∈ workers.toFinset) :=
      hended _ (hhas (hall t (List.mem_toFinset.mp ht)))
    have hcount (f : Kind × LockName → Bool) :
        es.countP (fun e => f (e.kind, e.lock)) = workers.length * (rounds * lap.countP f) := by
      rw [htells.countP, ← hcard]
      refine Finset.sum_const_nat fun t ht => ?_
      rw [(hplace t ht).2.2, countP_laps]
    have hwhole := htally.whole
    rw [Finset.sum_eq_zero fun t ht => ?_, hcard] at hwhole
    · refine ⟨hwhole, fun k hk => ?_, ?_⟩
      · have hlap : ∀ k ∈ [Kind.attempt, .acquired, .released],
            lap.countP (fun r => r.1 = k ∧ r.2 = name) = 1 := by decide
        rw [hcount fun r => r.1 = k ∧ r.2 = name, hlap k hk, Nat.mul_one, Nat.mul_comm]
        rfl
      · have hlength : es.length = workers.length * 15 :=
          (congrFun List.countP_true es).symm.trans (hcount fun _ => true)
        omega
    · change left (p.places.get t) _ = 0
      rw [(hplace t ht).1]
      rfl

end Run

/-- The second worker asks for the lock while the first has it, and gets it when the first is
through with all its rounds. -/
def overlapping : List ThreadId :=
  List.replicate 9 1 ++ List.replicate 2 2 ++ List.replicate 67 1 ++ List.replicate 74 2

set_option maxRecDepth 4000 in
theorem rehearse_overlapping : (Play.rehearse? script Play.deed? []
    (Play.opening (fun _ => start) start [1, 2] 0 Desk.console) overlapping).map
      (fun r => r.2.hasEnded 1 && r.2.hasEnded 2) = some true := by
  decide

theorem no_update_lost_overlapping : ∃ ds p, [1, 2].Nodup ∧
    Desk.console.Captures 0 .stdout [] none ∧
    Play.Chronicle script [1, 2] Desk.Ticks Play.deed?
      (Play.opening (fun _ => start) start [1, 2] 0 Desk.console) ds p ∧
    (∀ t ∈ [1, 2], p.hasEnded t = true) ∧ (p.world.mutex 0).value = 10 ∧
    ∃ es, Check.events? (p.world.recorder.bytes .stdout) = some es ∧ es.length = 30 := by
  obtain ⟨⟨ds, p⟩, hr, hboth⟩ := Option.map_eq_some_iff.mp rehearse_overlapping
  obtain ⟨hone, htwo⟩ := Bool.and_eq_true_iff.mp hboth
  have hn : [1, 2].Nodup := by decide
  have h : Play.Chronicle script [1, 2] Desk.Ticks Play.deed?
      (Play.opening (fun _ => start) start [1, 2] 0 Desk.console) ds p :=
    Play.Chronicle.start.rehearse (by simp [overlapping]) hr
  have hall : ∀ t ∈ [1, 2], p.hasEnded t = true := by simp [hone, htwo]
  obtain ⟨es, hes, _, _, _, _, _, hend⟩ := no_update_lost hn Desk.captures_console h
  obtain ⟨hvalue, _, hlength⟩ := hend hall
  exact ⟨ds, p, hn, Desk.captures_console, h, hall, hvalue, es, hes, hlength⟩

end LockTrace.Counter
