import LockTrace.Proofs.Sink.Room
import LockTrace.Proofs.Workload.Gathering

namespace LockTrace.Barrier

variable {R σ : Type} [Recorder R] {parties : Nat} {script : Script Phase σ}
  {spot : σ → Option Wait} {workers : List ThreadId} {P : R → Prop} {p₀ p p' : Play Phase R σ}
  {vs : List Visit} {m : Meeting} {t : ThreadId}

/-- Nobody has done anything yet, and all are outside the barrier or at its door. -/
structure Opens (spot : σ → Option Wait) (P : R → Prop) (p₀ : Play Phase R σ) : Prop where
  threads : ∀ t, p₀.world.thread t = {}
  places : ∀ t, Outside (spot (p₀.places.get t)) ∨ spot (p₀.places.get t) = some .locking
  mutex : p₀.world.mutex 0 = { value := ⟨0, 0⟩ }
  waiters : p₀.world.waiters 0 = []
  reliable : P p₀.world.recorder

/-- The meeting to which nobody has come yet. -/
def Meeting.empty : Meeting := ⟨⟨0, 0⟩, none, fun _ => .away, []⟩

theorem Meeting.sound_empty (hn : 0 < parties) : Meeting.empty.Sound parties where
  holder t := iff_of_false nofun id
  arrived := hn
  count := by
    rw [empty, Nat.mul_zero]
    rfl
  generation i v hv := by
    rw [empty, List.getElem?_nil] at hv
    contradiction
  answered i v leader hv := by
    rw [empty, List.getElem?_nil] at hv
    contradiction
  pending t i := by
    refine iff_of_false nofun ?_
    rintro ⟨v, hv, _⟩
    rw [empty, List.getElem?_nil] at hv
    contradiction
  fits t := trivial

omit [Recorder R] in
theorem Opens.agrees (h : Opens spot P p₀) : Agrees parties spot P p₀ .empty where
  phase := congrArg Mutex.value h.mutex
  holder := congrArg Mutex.holder h.mutex
  immune := by
    rw [h.mutex]
    exact ⟨rfl, rfl⟩
  waiters x := by
    rw [h.waiters]
    exact iff_of_false List.not_mem_nil nofun
  reliable := h.reliable
  sits t := by
    rw [World.guards, h.threads t]
    rcases h.places t with ho | ho
    · exact .out ho
    · rw [ho]
      exact .calling

/-- Whoever is away stays away while others take their turns. -/
theorem Meeting.Turn.away {m m' : Meeting} (h : m.Turn parties t m') {t' : ThreadId} (ht : t' ≠ t)
    (hs : m.seats t' = .away) : m'.seats t' = .away := by
  cases h with
  | notify =>
    dsimp only
    rw [Function.update_of_ne ht, hs]
    rfl
  | enter | lead | join | doze | pass | park | rouse | rejoin | leave | answer =>
    dsimp only
    rw [Function.update_of_ne ht]
    exact hs

/-- Every gathering looks like a meeting of which all is known. -/
theorem Gathering.exists_meeting (hn : 0 < parties) (hr : Recorder.Keeps 0 P)
    (hs : Attends parties script spot) (h₀ : Opens spot P p₀)
    (h : Gathering script spot workers P p₀ vs p) :
    ∃ m : Meeting, m.Sound parties ∧ Agrees parties spot P p m ∧ m.visits = vs ∧
      ∀ t ∉ workers, m.seats t = .away := by
  induction h with
  | start => exact ⟨.empty, Meeting.sound_empty hn, h₀.agrees, rfl, fun _ _ => rfl⟩
  | @act vs p p' t ht pick _ ha ih =>
    obtain ⟨m, hm, hagrees, rfl, haway⟩ := ih
    obtain ⟨m', hturn, hagrees', hvisits⟩ := hagrees.act hm hs hr ha
    rcases hturn with rfl | hturn
    · exact ⟨m', hm, hagrees', hvisits, haway⟩
    · refine ⟨m', hm.turn hturn, hagrees', hvisits, fun t' ht' => ?_⟩
      exact hturn.away (fun he => ht' (he ▸ ht)) (haway t' ht')
  | @rouse vs p w t _ hw ih =>
    obtain ⟨m, hm, hagrees, rfl, haway⟩ := ih
    obtain ⟨i, hseat, hagrees'⟩ := hagrees.rouse hw
    have hturn : m.Turn parties t _ := .rouse hseat
    refine ⟨_, hm.turn hturn, hagrees', rfl, fun t' ht' => ?_⟩
    have hne : t' ≠ t := by
      rintro rfl
      rw [haway t' ht'] at hseat
      contradiction
    exact hturn.away hne (haway t' ht')
  | drift r _ hP ih =>
    obtain ⟨m, hm, hagrees, hvisits, haway⟩ := ih
    exact ⟨m, hm, { hagrees with reliable := hP }, hvisits, haway⟩

/-- Where no worker can go on, all that are inside the barrier sleep in the current generation. -/
theorem Agrees.parked_of_stuck (h : Agrees parties spot P p m) (hm : m.Sound parties)
    (hs : Attends parties script spot) (haway : ∀ t ∉ workers, m.seats t = .away)
    (hstuck : ∀ t ∈ workers, ∀ pick, p.act script t pick = none) (ht : t ∈ workers)
    (hin : ¬ Outside (spot (p.places.get t))) :
    ∃ i, m.seats t = .parked i ∧ m.phase.generation = i / parties := by
  have hseat {t : ThreadId} (ht : t ∈ workers) (hin : ¬ Outside (spot (p.places.get t)))
      (hfree : m.holder = none ∨ (m.seats t).Holds) : ∃ i, m.seats t = .parked i := by
    by_contra hparked
    have hawake : (m.seats t).Awake := by
      cases hi : m.seats t with
      | parked i => exact hparked ⟨i, hi⟩
      | _ => trivial
    obtain ⟨p', ha⟩ := h.exists_act hs hin hawake hfree
    rw [hstuck t ht List.head?] at ha
    contradiction
  have hfree : m.holder = none := by
    by_contra hheld
    obtain ⟨t', ht'⟩ := Option.ne_none_iff_exists'.mp hheld
    have hholds := (hm.holder t').mp ht'
    have hworker : t' ∈ workers := by
      by_contra hnot
      rw [haway t' hnot] at hholds
      exact hholds
    have hinside : ¬ Outside (spot (p.places.get t')) := by
      intro ho
      rw [((h.sits t').of_outside ho).2.2] at hholds
      exact hholds
    obtain ⟨i, hi⟩ := hseat hworker hinside (.inr hholds)
    rw [hi] at hholds
    exact hholds
  obtain ⟨i, hi⟩ := hseat ht hin (.inl hfree)
  have hfits := hm.fits t
  rw [hi] at hfits
  refine ⟨i, hi, hfits.2.resolve_right ?_⟩
  rintro ⟨t', j, hj⟩
  have hholds := (hm.holder t').mpr (by rw [hj]; trivial)
  rw [hfree] at hholds
  contradiction

/-- Whatever the number of workers and however often they come to the barrier: while nobody has the
mutex, the phase counts all arrivals in rounds of as many as there are parties. A call returns only
when its round is complete, at most one call of a round is told that it completed it, and one is
when all have returned. When nobody can go on, all that wait inside do so in the current round,
which is not complete. -/
theorem calls_meet_in_rounds (hn : 0 < parties) (hr : Recorder.Keeps 0 P)
    (hs : Attends parties script spot) (h₀ : Opens spot P p₀)
    (h : Gathering script spot workers P p₀ vs p) :
    (p.world.holder 0 = none → (p.world.mutex 0).value.arrived < parties ∧
      vs.length = parties * (p.world.mutex 0).value.generation + (p.world.mutex 0).value.arrived) ∧
    (∀ v ∈ vs, v.answer ≠ none → vs.countP (·.generation = v.generation) = parties) ∧
    (∀ g, vs.countP (fun v => v.generation = g ∧ v.answer = some true) ≤ 1) ∧
    (∀ g, vs.countP (·.generation = g) = parties →
      (∀ v ∈ vs, v.generation = g → v.answer ≠ none) →
      vs.countP (fun v => v.generation = g ∧ v.answer = some true) = 1) ∧
    ((∀ t ∈ workers, ∀ pick, p.act script t pick = none) →
      ∀ t ∈ workers, ¬ Outside (spot (p.places.get t)) →
        ∃ v ∈ vs, v.thread = t ∧ v.answer = none ∧
          v.generation = (p.world.mutex 0).value.generation ∧
          vs.countP (·.generation = v.generation) < parties) := by
  obtain ⟨m, hm, hagrees, rfl, haway⟩ := h.exists_meeting hn hr hs h₀
  rw [hagrees.phase]
  refine ⟨fun _ => ⟨hm.arrived, hm.count⟩, fun v hv ha => hm.countP_of_answered hv ha, fun g => ?_,
    fun g hc ha => hm.countP_leader hc ha, fun hstuck t ht hin => ?_⟩
  · apply Nat.le_trans (hm.countP_leader_le g)
    split <;> omega
  · obtain ⟨i, hi, hg⟩ := hagrees.parked_of_stuck hm hs haway hstuck ht hin
    obtain ⟨v, hv, hvt, hopen⟩ := (hm.pending t i).mp (by rw [hi]; rfl)
    have hgen : v.generation = m.phase.generation := by rw [hm.generation i v hv, hg]
    refine ⟨v, List.mem_of_getElem? hv, hvt, hopen, hgen, ?_⟩
    have hcount := hm.count
    have harrived := hm.arrived
    rw [hgen, hm.countP_generation]
    omega

/-- Where in a call of the barrier a worker of the workload is. -/
def Place.wait? : Place → Option Wait
  | .inside w => some w
  | _ => none

/-- The workload's workers have no other calls than that of the barrier. -/
theorem attends_script (parties : Nat) : Attends parties (Barrier.script parties) Place.wait? where
  inside t s w hs _ := by
    cases s with
    | inside w' =>
      cases hs
      exact ⟨.inside, _, fun _ => rfl, rfl⟩
    | starting | working | arriving | passed | finishing | ended => contradiction
  outside t s ho := by
    cases s with
    | inside w =>
      cases w with
      | ended answer =>
        cases answer with
        | ok leader => exact .inl outside_none
        | error e => trivial
      | locking | arriving | notifying | waiting | leaving | failing => exact (ho _ rfl).elim
    | starting | working | passed | finishing => exact .inl outside_none
    | arriving => exact .inr rfl
    | ended => trivial

/-- An emitter whose sink takes every record is reliable. -/
theorem reliable_desk (e : EmitterId) :
    Recorder.Keeps e fun d : Desk => (d.sinks.get e).HasRoom none := by
  intro d k tid lock h
  have ht := h.takes [] ⟨k, d.clock, tid, lock⟩ nofun
  refine ⟨(d.record e k tid lock).2, Prod.ext ?_ rfl, ?_⟩
  · exact congrArg (Except.mapError TraceError.sink) ht.1
  · dsimp only
    rw [Desk.sink_record]
    exact h.next _

/-- Lets workers move in this order. -/
def gather? (script : Script Phase σ) (spot : σ → Option Wait) (vs : List Visit)
    (p : Play Phase R σ) : List ThreadId → Option (List Visit × Play Phase R σ)
  | [] => some (vs, p)
  | t :: ts => (p.act script t List.head?).bind fun p' =>
    gather? script spot (visitsAfter spot vs p p' t) p' ts

theorem Gathering.gather {ts : List ThreadId} {vs' : List Visit}
    (h : Gathering script spot workers P p₀ vs p) (ht : ∀ t ∈ ts, t ∈ workers)
    (hg : gather? script spot vs p ts = some (vs', p')) :
    Gathering script spot workers P p₀ vs' p' := by
  induction ts generalizing vs p with
  | nil =>
    cases hg
    exact h
  | cons t ts ih =>
    obtain ⟨p₁, ha, hg⟩ := Option.bind_eq_some_iff.mp hg
    exact ih (h.act t (ht t (List.mem_cons_self ..)) _ ha)
      (fun t' ht' => ht t' (List.mem_cons_of_mem t ht')) hg

/-- Workers that come to the barrier again and again. -/
def rounds (parties : Nat) : Script Phase Wait := fun _ w => w.action parties id fun
  | .ok _ => .pause 0 .locking
  | .error e => .stop (.error e.message)

theorem attends_rounds (parties : Nat) : Attends parties (rounds parties) some where
  inside t s w hs _ := by
    cases hs
    exact ⟨id, _, fun _ => rfl, rfl⟩
  outside t s ho := by
    cases s with
    | ended answer =>
      cases answer with
      | ok leader => exact .inr rfl
      | error e => trivial
    | locking | arriving | notifying | waiting | leaving | failing => exact (ho _ rfl).elim

/-- Workers at the door of a barrier that is traced to the standard output. -/
def lobby : Play Phase Desk Wait where
  world := { mutexes := ⟨{ value := ⟨0, 0⟩ }, []⟩, recorder := { sinks := ⟨.stdout, []⟩ } }
  places := ⟨.locking, []⟩

theorem opens_lobby : Opens some (fun d => (d.sinks.get 0).HasRoom none) lobby :=
  ⟨fun _ => rfl, fun _ => .inr rfl, rfl, rfl, Sink.hasRoom_stdout⟩

/-- The second worker completes a generation and comes back before the first one, which it has
called, is awake. Then the first one leaves, and a third one completes the next generation. -/
def overtaken : List ThreadId :=
  List.replicate 12 1 ++ List.replicate 28 2 ++ List.replicate 8 1 ++ List.replicate 15 3 ++
    List.replicate 8 2

def visits : List Visit :=
  [⟨1, 0, some false⟩, ⟨2, 0, some true⟩, ⟨2, 1, some false⟩, ⟨3, 1, some true⟩]

theorem gather_overtaken : (gather? (rounds 2) some [] lobby overtaken).map
    (fun r => (r.1, r.2.world.holder 0)) = some (visits, none) := by
  decide

theorem calls_meet_in_rounds_overtaken : ∃ p,
    Attends 2 (rounds 2) some ∧
      Opens some (fun d => (d.sinks.get 0).HasRoom none) lobby ∧
      Gathering (rounds 2) some [1, 2, 3] (fun d => (d.sinks.get 0).HasRoom none) lobby visits p ∧
      p.world.holder 0 = none ∧
      visits.length = 2 * (p.world.mutex 0).value.generation + (p.world.mutex 0).value.arrived ∧
      ∀ g < 2, visits.countP (fun v => v.generation = g ∧ v.answer = some true) = 1 := by
  obtain ⟨⟨_, p⟩, hg, he⟩ := Option.map_eq_some_iff.mp gather_overtaken
  obtain ⟨rfl, hfree⟩ := Prod.mk.inj he
  have h : Gathering (rounds 2) some [1, 2, 3] (fun d => (d.sinks.get 0).HasRoom none) lobby
      visits p := Gathering.start.gather (by decide) hg
  obtain ⟨hcount, _, _, hleader, _⟩ := calls_meet_in_rounds (by decide) (reliable_desk 0)
    (attends_rounds 2) opens_lobby h
  refine ⟨p, attends_rounds 2, opens_lobby, h, hfree, (hcount hfree).2, fun g hg => ?_⟩
  apply hleader g
  · have hround : ∀ g < 2, visits.countP (·.generation = g) = 2 := by decide
    exact hround g hg
  · simp [visits]

end LockTrace.Barrier
