import LockTrace.Workload.Barrier
import Mathlib.Logic.Function.Basic
import Mathlib.Data.List.Induction

namespace LockTrace.Barrier

/-- A call that has arrived at the barrier, with the generation in which it did, and its answer
once it has returned. -/
structure Visit where
  thread : ThreadId
  generation : Nat
  answer : Option Bool := none
  deriving DecidableEq, Repr

/-- The thread's visit that has no answer yet gets this one. -/
def Visit.close (t : ThreadId) (leader : Bool) (v : Visit) : Visit :=
  if v.thread = t ∧ v.answer = none then { v with answer := some leader } else v

/-- The visit in this position, counted over all generations, completes its generation. -/
def Completes (parties i : Nat) : Prop := i % parties + 1 = parties

instance (parties i : Nat) : Decidable (Completes parties i) := Nat.decEq ..

/-- Where a call of the barrier stands, as far as the others are concerned, with the position of its
visit. Who judges is about to compare generations, and who leads is about to wake the others. -/
inductive Seat
  | away
  | entered
  | leading (i : Nat)
  | judging (i : Nat)
  | dozing (i : Nat)
  | parked (i : Nat)
  | roused (i : Nat)
  | leaving (i : Nat) (leader : Bool)
  | left (i : Nat) (leader : Bool)

namespace Seat

/-- The thread holds the mutex. -/
def Holds : Seat → Prop
  | .entered | .leading _ | .judging _ | .dozing _ | .leaving .. => True
  | .away | .parked _ | .roused _ | .left .. => False

/-- The position of the visit that the thread makes. -/
def visit? : Seat → Option Nat
  | .away | .entered => none
  | .leading i | .judging i | .dozing i | .parked i | .roused i | .leaving i _ | .left i _ => some i

def rouse : Seat → Seat
  | .parked i => .roused i
  | s => s

@[simp] theorem holds_rouse (s : Seat) : s.rouse.Holds ↔ s.Holds := by
  cases s <;> exact Iff.rfl

@[simp] theorem visit?_rouse (s : Seat) : s.rouse.visit? = s.visit? := by
  cases s <;> rfl

/-- The thread does not sleep. -/
def Awake : Seat → Prop
  | .parked _ => False
  | _ => True

theorem Awake.ne {s : Seat} (h : s.Awake) (i : Nat) : s ≠ .parked i := by
  intro hs
  rw [hs] at h
  exact h

theorem awake_rouse (s : Seat) : s.rouse.Awake := by
  cases s <;> trivial

/-- What is known of the visit of a thread in this seat. Nobody sleeps through the end of a
generation, unless somebody leads and is about to wake the sleepers. -/
def Fits (parties generation : Nat) (led : Prop) : Seat → Prop
  | .away | .entered => True
  | .leading i => Completes parties i ∧ i / parties < generation
  | .judging i | .roused i => ¬ Completes parties i
  | .dozing i => ¬ Completes parties i ∧ generation = i / parties
  | .parked i => ¬ Completes parties i ∧ (generation = i / parties ∨ led)
  | .leaving i leader | .left i leader =>
    leader = decide (Completes parties i) ∧ i / parties < generation

theorem Fits.mono {parties generation : Nat} {led led' : Prop} (hl : led → led') {s : Seat}
    (h : s.Fits parties generation led) : s.Fits parties generation led' := by
  cases s with
  | parked i => exact ⟨h.1, h.2.imp id hl⟩
  | away | entered | leading | judging | dozing | roused | leaving | left => exact h

/-- At the end of a generation nobody but the one who ends it holds the mutex. -/
theorem Fits.succ {parties generation : Nat} {led led' : Prop} (hl : led') {s : Seat}
    (h : s.Fits parties generation led) (hs : ¬ s.Holds) :
    s.Fits parties (generation + 1) led' := by
  cases s with
  | away | entered => trivial
  | judging i | roused i => exact h
  | leading i | dozing i => exact absurd trivial hs
  | parked i => exact ⟨h.1, .inr hl⟩
  | leaving i leader | left i leader => exact ⟨h.1, Nat.lt_succ_of_lt h.2⟩

/-- The sleepers are woken. -/
theorem Fits.rouse {parties generation : Nat} {led led' : Prop} {s : Seat}
    (h : s.Fits parties generation led) : s.rouse.Fits parties generation led' := by
  cases s with
  | parked i => exact h.1
  | away | entered | leading | judging | dozing | roused | leaving | left => exact h

end Seat

/-- The phase, who holds its mutex, where everybody is, and all visits in the order of arrival. -/
structure Meeting where
  phase : Phase
  holder : Option ThreadId
  seats : ThreadId → Seat
  visits : List Visit

namespace Meeting

open Function (update update_self update_of_ne)

/-- Somebody has completed a generation and has not told the others yet. -/
def Led (m : Meeting) : Prop := ∃ t i, m.seats t = .leading i

/-- What a thread can do that matters to the others. -/
inductive Turn (parties : Nat) (m : Meeting) (t : ThreadId) : Meeting → Prop
  | enter (hs : m.seats t = .away) (hf : m.holder = none) :
      Turn parties m t { m with holder := some t, seats := update m.seats t .entered }
  | lead (hs : m.seats t = .entered) (hp : m.phase.arrived + 1 = parties) :
      Turn parties m t
        { m with
          phase := m.phase.arrive parties
          seats := update m.seats t (.leading m.visits.length)
          visits := m.visits ++ [⟨t, m.phase.generation, none⟩] }
  | join (hs : m.seats t = .entered) (hp : m.phase.arrived + 1 ≠ parties) :
      Turn parties m t
        { m with
          phase := m.phase.arrive parties
          seats := update m.seats t (.judging m.visits.length)
          visits := m.visits ++ [⟨t, m.phase.generation, none⟩] }
  | notify {i : Nat} (hs : m.seats t = .leading i) :
      Turn parties m t
        { m with seats := update (fun t' => (m.seats t').rouse) t (.leaving i true) }
  | doze {i : Nat} (hs : m.seats t = .judging i) (hg : m.phase.generation = i / parties) :
      Turn parties m t { m with seats := update m.seats t (.dozing i) }
  | pass {i : Nat} (hs : m.seats t = .judging i) (hg : m.phase.generation ≠ i / parties) :
      Turn parties m t { m with seats := update m.seats t (.leaving i false) }
  | park {i : Nat} (hs : m.seats t = .dozing i) :
      Turn parties m t { m with holder := none, seats := update m.seats t (.parked i) }
  | rouse {i : Nat} (hs : m.seats t = .parked i) :
      Turn parties m t { m with seats := update m.seats t (.roused i) }
  | rejoin {i : Nat} (hs : m.seats t = .roused i) (hf : m.holder = none) :
      Turn parties m t { m with holder := some t, seats := update m.seats t (.judging i) }
  | leave {i : Nat} {leader : Bool} (hs : m.seats t = .leaving i leader) :
      Turn parties m t { m with holder := none, seats := update m.seats t (.left i leader) }
  | answer {i : Nat} {leader : Bool} (hs : m.seats t = .left i leader) :
      Turn parties m t
        { m with
          seats := update m.seats t .away
          visits := m.visits.map (Visit.close t leader) }

/-- The visits come in rounds of as many as there are parties. A visit has an answer only when its
round is complete, and only the last one of a round is told so. -/
structure Sound (parties : Nat) (m : Meeting) : Prop where
  holder : ∀ t, m.holder = some t ↔ (m.seats t).Holds
  arrived : m.phase.arrived < parties
  count : m.visits.length = parties * m.phase.generation + m.phase.arrived
  generation : ∀ i v, m.visits[i]? = some v → v.generation = i / parties
  answered : ∀ i v leader, m.visits[i]? = some v → v.answer = some leader →
    leader = decide (Completes parties i) ∧ i / parties < m.phase.generation
  pending : ∀ t i, (m.seats t).visit? = some i ↔
    ∃ v, m.visits[i]? = some v ∧ v.thread = t ∧ v.answer = none
  fits : ∀ t, (m.seats t).Fits parties m.phase.generation m.Led

namespace Sound

variable {parties : Nat} {m m' : Meeting} {t : ThreadId}

section Holder

variable {s : Seat}

theorem holder_same (h : m.Sound parties) (hs : s.Holds ↔ (m.seats t).Holds) (t' : ThreadId) :
    m.holder = some t' ↔ (update m.seats t s t').Holds := by
  by_cases ht : t' = t
  · subst ht
    rw [update_self, hs]
    exact h.holder t'
  · rw [update_of_ne ht]
    exact h.holder t'

theorem holder_take (h : m.Sound parties) (hf : m.holder = none) (hs : s.Holds) (t' : ThreadId) :
    some t = some t' ↔ (update m.seats t s t').Holds := by
  by_cases ht : t' = t
  · subst ht
    rw [update_self]
    exact iff_of_true rfl hs
  · rw [update_of_ne ht, ← h.holder t', hf]
    exact iff_of_false (by simpa using Ne.symm ht) nofun

theorem holder_free (h : m.Sound parties) (ht : (m.seats t).Holds) (hs : ¬ s.Holds)
    (t' : ThreadId) : none = some t' ↔ (update m.seats t s t').Holds := by
  refine iff_of_false nofun ?_
  by_cases he : t' = t
  · subst he
    rw [update_self]
    exact hs
  · rw [update_of_ne he, ← h.holder t', (h.holder t).mpr ht]
    simpa using Ne.symm he

end Holder

/-- Only one thread holds the mutex. -/
theorem eq_of_holds (h : m.Sound parties) {t' : ThreadId} (ht : (m.seats t).Holds)
    (ht' : (m.seats t').Holds) : t' = t := by
  have he := (h.holder t').mpr ht'
  rw [(h.holder t).mpr ht] at he
  exact (Option.some_inj.mp he).symm

/-- Nobody visits in a generation to come. -/
theorem div_le (h : m.Sound parties) {i : Nat} (hi : (m.seats t).visit? = some i) :
    i / parties ≤ m.phase.generation := by
  obtain ⟨v, hv, _⟩ := (h.pending t i).mp hi
  obtain ⟨hlt, _⟩ := List.getElem?_eq_some_iff.mp hv
  have hnext : i < parties * (m.phase.generation + 1) := by
    rw [Nat.mul_succ]
    have hc := h.count
    have ha := h.arrived
    omega
  exact Nat.lt_succ_iff.mp (Nat.div_lt_of_lt_mul hnext)

/-- Whoever does not lead leaves the leaders alone. -/
theorem led_update (hs : ∀ i, m.seats t ≠ .leading i) (s : Seat) (h : m.Led) :
    ∃ t' i, update m.seats t s t' = .leading i := by
  obtain ⟨t', i, hi⟩ := h
  have hne : t' ≠ t := by
    intro he
    subst he
    exact hs i hi
  exact ⟨t', i, by rwa [update_of_ne hne]⟩

/-- A thread takes another seat with the same visit. -/
theorem resit (h : m.Sound parties) {s : Seat} {holder : Option ThreadId}
    (hh : ∀ t', holder = some t' ↔ (update m.seats t s t').Holds)
    (hl : ∀ i, m.seats t ≠ .leading i) (hv : s.visit? = (m.seats t).visit?)
    (hs : s.Fits parties m.phase.generation m.Led) :
    Sound parties { m with holder := holder, seats := update m.seats t s } where
  holder := hh
  arrived := h.arrived
  count := h.count
  generation := h.generation
  answered := h.answered
  pending t' i := by
    dsimp only
    by_cases ht : t' = t
    · subst ht
      rw [update_self, hv]
      exact h.pending t' i
    · rw [update_of_ne ht]
      exact h.pending t' i
  fits t' := by
    dsimp only
    by_cases ht : t' = t
    · subst ht
      rw [update_self]
      exact hs.mono (led_update hl s)
    · rw [update_of_ne ht]
      exact (h.fits t').mono (led_update hl s)

theorem getElem?_concat_eq_some {vs : List Visit} {v v' : Visit} {i : Nat} :
    (vs ++ [v])[i]? = some v' ↔ vs[i]? = some v' ∨ i = vs.length ∧ v' = v := by
  rcases Nat.lt_trichotomy i vs.length with hi | hi | hi
  · rw [List.getElem?_append_left hi]
    exact (or_iff_left fun h => Nat.ne_of_lt hi h.1).symm
  · subst hi
    simp [eq_comm]
  · rw [List.getElem?_eq_none (Nat.le_of_lt hi),
      List.getElem?_eq_none (by rw [List.length_append, List.length_singleton]; omega)]
    exact iff_of_false nofun (by simp only [reduceCtorEq, false_or]; omega)

/-- A thread arrives and starts a visit. -/
theorem arrive (h : m.Sound parties) (ht : m.seats t = .entered) {s : Seat}
    (hv : s.visit? = some m.visits.length) (hs : s.Holds) {p : Phase} (hp : p.arrived < parties)
    (hg : m.phase.generation ≤ p.generation)
    (hc : m.visits.length + 1 = parties * p.generation + p.arrived)
    (hfits : ∀ t', (update m.seats t s t').Fits parties p.generation
      (∃ t' i, update m.seats t s t' = .leading i)) :
    Sound parties
      { m with
        phase := p
        seats := update m.seats t s
        visits := m.visits ++ [⟨t, m.phase.generation, none⟩] } where
  holder := h.holder_same (by rw [ht]; exact iff_of_true hs trivial)
  arrived := hp
  count := by
    rw [List.length_append, List.length_singleton]
    exact hc
  generation i v hi := by
    rcases getElem?_concat_eq_some.mp hi with hi | ⟨rfl, rfl⟩
    · exact h.generation i v hi
    · have ha := h.arrived
      rw [h.count, Nat.mul_add_div (by omega), Nat.div_eq_of_lt ha, Nat.add_zero]
  answered i v leader hi hl := by
    rcases getElem?_concat_eq_some.mp hi with hi | ⟨_, rfl⟩
    · obtain ⟨he, hlt⟩ := h.answered i v leader hi hl
      exact ⟨he, Nat.lt_of_lt_of_le hlt hg⟩
    · contradiction
  pending t' i := by
    dsimp only
    by_cases he : t' = t
    · subst he
      rw [update_self, hv]
      constructor
      · intro hi
        obtain rfl := Option.some_inj.mp hi
        exact ⟨_, getElem?_concat_eq_some.mpr (.inr ⟨rfl, rfl⟩), rfl, rfl⟩
      · rintro ⟨v, hi, hv⟩
        rcases getElem?_concat_eq_some.mp hi with hi | ⟨rfl, _⟩
        · have hnone := (h.pending t' i).mpr ⟨v, hi, hv⟩
          rw [ht] at hnone
          contradiction
        · rfl
    · rw [update_of_ne he, h.pending t' i]
      constructor
      · rintro ⟨v, hi, hv⟩
        exact ⟨v, getElem?_concat_eq_some.mpr (.inl hi), hv⟩
      · rintro ⟨v, hi, hv⟩
        rcases getElem?_concat_eq_some.mp hi with hi | ⟨_, rfl⟩
        · exact ⟨v, hi, hv⟩
        · exact absurd hv.1 (Ne.symm he)
  fits := hfits

theorem lead (h : m.Sound parties) (hs : m.seats t = .entered)
    (hp : m.phase.arrived + 1 = parties) :
    Sound parties
      { m with
        phase := m.phase.arrive parties
        seats := update m.seats t (.leading m.visits.length)
        visits := m.visits ++ [⟨t, m.phase.generation, none⟩] } := by
  have hcount := h.count
  have hphase : m.phase.arrive parties = ⟨0, m.phase.generation + 1⟩ := if_pos hp
  rw [hphase]
  apply h.arrive hs rfl
  · trivial
  · show 0 < parties
    omega
  · exact Nat.le_succ _
  · show _ = parties * (m.phase.generation + 1) + 0
    rw [Nat.mul_succ]
    omega
  · intro t'
    by_cases ht : t' = t
    · subst ht
      rw [update_self, Seat.Fits, Completes, hcount, Nat.mul_add_mod, Nat.mul_add_div (by omega),
        Nat.mod_eq_of_lt h.arrived, Nat.div_eq_of_lt h.arrived]
      exact ⟨hp, Nat.lt_succ_self _⟩
    · rw [update_of_ne ht]
      apply (h.fits t').succ ⟨t, _, update_self ..⟩
      intro hh
      exact ht (h.eq_of_holds (by rw [hs]; trivial) hh)

theorem join (h : m.Sound parties) (hs : m.seats t = .entered)
    (hp : m.phase.arrived + 1 ≠ parties) :
    Sound parties
      { m with
        phase := m.phase.arrive parties
        seats := update m.seats t (.judging m.visits.length)
        visits := m.visits ++ [⟨t, m.phase.generation, none⟩] } := by
  have hcount := h.count
  have harrived := h.arrived
  have hphase : m.phase.arrive parties = ⟨m.phase.arrived + 1, m.phase.generation⟩ := if_neg hp
  rw [hphase]
  apply h.arrive hs rfl
  · trivial
  · show m.phase.arrived + 1 < parties
    omega
  · exact Nat.le_refl _
  · show _ = parties * m.phase.generation + (m.phase.arrived + 1)
    omega
  · intro t'
    by_cases ht : t' = t
    · subst ht
      rw [update_self, Seat.Fits, Completes, hcount, Nat.mul_add_mod, Nat.mod_eq_of_lt harrived]
      exact hp
    · rw [update_of_ne ht]
      apply (h.fits t').mono
      apply led_update
      simp [hs]

/-- Whoever completed the generation wakes the others. -/
theorem notify (h : m.Sound parties) {i : Nat} (hs : m.seats t = .leading i) :
    Sound parties
      { m with seats := update (fun t' => (m.seats t').rouse) t (.leaving i true) } where
  holder t' := by
    dsimp only
    by_cases ht : t' = t
    · subst ht
      rw [update_self, h.holder t', hs]
      rfl
    · rw [update_of_ne ht, Seat.holds_rouse]
      exact h.holder t'
  arrived := h.arrived
  count := h.count
  generation := h.generation
  answered := h.answered
  pending t' j := by
    dsimp only
    by_cases ht : t' = t
    · subst ht
      rw [update_self, ← h.pending t' j, hs]
      rfl
    · rw [update_of_ne ht, Seat.visit?_rouse]
      exact h.pending t' j
  fits t' := by
    dsimp only
    by_cases ht : t' = t
    · subst ht
      have hf := h.fits t'
      rw [hs] at hf
      rw [update_self]
      exact ⟨(decide_eq_true hf.1).symm, hf.2⟩
    · rw [update_of_ne ht]
      exact (h.fits t').rouse

theorem thread_close (t : ThreadId) (leader : Bool) (v : Visit) :
    (v.close t leader).thread = v.thread := by
  rw [Visit.close]
  split <;> rfl

/-- A call returns, and its visit gets the answer. -/
theorem answer (h : m.Sound parties) {i : Nat} {leader : Bool} (hs : m.seats t = .left i leader) :
    Sound parties
      { m with
        seats := update m.seats t .away
        visits := m.visits.map (Visit.close t leader) } where
  holder := h.holder_same (by rw [hs]; rfl)
  arrived := h.arrived
  count := by
    rw [List.length_map]
    exact h.count
  generation j v hj := by
    rw [List.getElem?_map] at hj
    obtain ⟨u, hu, rfl⟩ := Option.map_eq_some_iff.mp hj
    rw [← h.generation j u hu, Visit.close]
    split <;> rfl
  answered j v b hj hb := by
    rw [List.getElem?_map] at hj
    obtain ⟨u, hu, rfl⟩ := Option.map_eq_some_iff.mp hj
    rw [Visit.close] at hb
    split at hb
    · rename_i hopen
      have hvisit := (h.pending t j).mpr ⟨u, hu, hopen⟩
      have hf := h.fits t
      rw [hs] at hvisit hf
      cases hvisit
      cases hb
      exact hf
    · exact h.answered j u b hu hb
  pending t' j := by
    dsimp only
    by_cases ht : t' = t
    · subst ht
      rw [update_self]
      refine iff_of_false nofun ?_
      rintro ⟨v, hv, ht, hnone⟩
      rw [List.getElem?_map] at hv
      obtain ⟨u, hu, rfl⟩ := Option.map_eq_some_iff.mp hv
      rw [thread_close] at ht
      rw [Visit.close] at hnone
      split at hnone
      · contradiction
      · rename_i hopen
        exact hopen ⟨ht, hnone⟩
    · have hsame {v : Visit} (hv : v.thread = t') : v.close t leader = v :=
        if_neg fun hc => ht (hv.symm.trans hc.1)
      rw [update_of_ne ht, h.pending t' j, List.getElem?_map]
      constructor
      · rintro ⟨v, hv, he, hnone⟩
        refine ⟨v, ?_, he, hnone⟩
        rw [hv, Option.map_some, hsame he]
      · rintro ⟨v, hv, he, hnone⟩
        obtain ⟨u, hu, rfl⟩ := Option.map_eq_some_iff.mp hv
        rw [thread_close] at he
        rw [hsame he] at hnone
        exact ⟨u, hu, he, hnone⟩
  fits t' := by
    dsimp only
    by_cases ht : t' = t
    · subst ht
      rw [update_self]
      trivial
    · rw [update_of_ne ht]
      apply (h.fits t').mono
      apply led_update
      simp [hs]

/-- What is known of the visits stays known, whatever a thread does. -/
theorem turn (h : m.Sound parties) (ht : Turn parties m t m') : m'.Sound parties := by
  have hf := h.fits t
  cases ht with
  | enter hs hfree =>
    exact h.resit (h.holder_take hfree trivial) (by simp [hs]) (by rw [hs]; rfl) trivial
  | lead hs hp => exact h.lead hs hp
  | join hs hp => exact h.join hs hp
  | notify hs => exact h.notify hs
  | doze hs hg =>
    rw [hs] at hf
    exact h.resit (h.holder_same (by rw [hs]; rfl)) (by simp [hs]) (by rw [hs]; rfl) ⟨hf, hg⟩
  | @pass i hs hg =>
    rw [hs] at hf
    have hle := h.div_le (t := t) (i := i) (by rw [hs]; rfl)
    exact h.resit (h.holder_same (by rw [hs]; rfl)) (by simp [hs]) (by rw [hs]; rfl)
      ⟨(decide_eq_false hf).symm, Nat.lt_of_le_of_ne hle (Ne.symm hg)⟩
  | park hs =>
    rw [hs] at hf
    exact h.resit (h.holder_free (by rw [hs]; trivial) nofun) (by simp [hs]) (by rw [hs]; rfl)
      ⟨hf.1, .inl hf.2⟩
  | rouse hs =>
    rw [hs] at hf
    exact h.resit (h.holder_same (by rw [hs]; rfl)) (by simp [hs]) (by rw [hs]; rfl) hf.1
  | rejoin hs hfree =>
    rw [hs] at hf
    exact h.resit (h.holder_take hfree trivial) (by simp [hs]) (by rw [hs]; rfl) hf
  | leave hs =>
    rw [hs] at hf
    exact h.resit (h.holder_free (by rw [hs]; trivial) nofun) (by simp [hs]) (by rw [hs]; rfl) hf
  | answer hs => exact h.answer hs

section Count

theorem completes_iff (hn : 0 < parties) (g i : Nat) :
    i / parties = g ∧ Completes parties i ↔ i + 1 = parties * (g + 1) := by
  have hi := Nat.div_add_mod i parties
  rw [Nat.mul_succ, Completes]
  constructor
  · rintro ⟨rfl, hc⟩
    omega
  · intro he
    have hg : i / parties = g := by
      rw [Nat.div_eq_iff hn]
      rw [Nat.mul_comm] at he
      omega
    rw [hg] at hi
    exact ⟨hg, by omega⟩

/-- As many visits have a generation as there are parties, if it is complete, and otherwise those
that have come so far. -/
theorem countP_generation (h : m.Sound parties) (g : Nat) :
    m.visits.countP (·.generation = g) = min parties (m.visits.length - parties * g) := by
  have hn : 0 < parties := Nat.zero_lt_of_lt h.arrived
  have hgen := h.generation
  generalize m.visits = vs at hgen ⊢
  induction vs using List.reverseRecOn with
  | nil => simp
  | append_singleton vs v ih =>
    have hv := hgen vs.length v (getElem?_concat_eq_some.mpr (.inr ⟨rfl, rfl⟩))
    have hvs := ih fun i u hu => hgen i u (getElem?_concat_eq_some.mpr (.inl hu))
    have hg : v.generation = g ↔
        g * parties ≤ vs.length ∧ vs.length ≤ g * parties + parties - 1 := by
      rw [hv, Nat.div_eq_iff hn]
    rw [List.countP_append, List.countP_singleton, hvs, List.length_append, List.length_singleton]
    simp only [decide_eq_true_eq, hg, Nat.mul_comm g parties]
    split <;> omega

/-- Only the visit that completes a generation can be told so. -/
theorem countP_leader_le (h : m.Sound parties) (g : Nat) :
    m.visits.countP (fun v => v.generation = g ∧ v.answer = some true) ≤
      if parties * (g + 1) ≤ m.visits.length then 1 else 0 := by
  have hn : 0 < parties := Nat.zero_lt_of_lt h.arrived
  have hgen := h.generation
  have hanswered : ∀ i v, m.visits[i]? = some v → v.answer = some true → Completes parties i :=
    fun i v hv ha => of_decide_eq_true (h.answered i v true hv ha).1.symm
  generalize m.visits = vs at hgen hanswered ⊢
  induction vs using List.reverseRecOn with
  | nil => simp
  | append_singleton vs v ih =>
    have hlast : (vs ++ [v])[vs.length]? = some v := getElem?_concat_eq_some.mpr (.inr ⟨rfl, rfl⟩)
    have hvs := ih (fun i u hu => hgen i u (getElem?_concat_eq_some.mpr (.inl hu)))
      fun i u hu => hanswered i u (getElem?_concat_eq_some.mpr (.inl hu))
    have hv : v.generation = g ∧ v.answer = some true → vs.length + 1 = parties * (g + 1) := by
      rintro ⟨rfl, ha⟩
      exact (completes_iff hn _ _).mp ⟨(hgen _ v hlast).symm, hanswered _ v hlast ha⟩
    rw [List.countP_append, List.countP_singleton, List.length_append, List.length_singleton]
    by_cases hp : v.generation = g ∧ v.answer = some true
    · have he := hv hp
      rw [if_neg (by omega)] at hvs
      rw [if_pos (decide_eq_true hp), if_pos (Nat.le_of_eq he.symm)]
      omega
    · rw [if_neg (by simpa using hp), Nat.add_zero]
      apply Nat.le_trans hvs
      split
      · exact Nat.le_of_eq (if_pos (by omega)).symm
      · exact Nat.zero_le _

/-- A visit with an answer is in a round that is complete. -/
theorem countP_of_answered (h : m.Sound parties) {v : Visit} (hv : v ∈ m.visits)
    (ha : v.answer ≠ none) : m.visits.countP (·.generation = v.generation) = parties := by
  obtain ⟨i, hi⟩ := List.mem_iff_getElem?.mp hv
  obtain ⟨leader, hl⟩ := Option.ne_none_iff_exists'.mp ha
  have hlt := (h.answered i v leader hi hl).2
  have hle : parties * (v.generation + 1) ≤ parties * m.phase.generation := by
    rw [h.generation i v hi]
    exact Nat.mul_le_mul_left _ hlt
  have hcount := h.count
  rw [Nat.mul_succ] at hle
  rw [h.countP_generation]
  omega

/-- When all visits of a round have their answers one of them was the last. -/
theorem countP_leader (h : m.Sound parties) {g : Nat}
    (hc : m.visits.countP (·.generation = g) = parties)
    (ha : ∀ v ∈ m.visits, v.generation = g → v.answer ≠ none) :
    m.visits.countP (fun v => v.generation = g ∧ v.answer = some true) = 1 := by
  have hn : 0 < parties := Nat.zero_lt_of_lt h.arrived
  have hle := h.countP_leader_le g
  have hpos : 0 < m.visits.countP (fun v => v.generation = g ∧ v.answer = some true) := by
    rw [h.countP_generation] at hc
    obtain ⟨i, hi⟩ : ∃ i, i + 1 = parties * (g + 1) := by
      rw [Nat.mul_succ]
      exact ⟨parties * g + parties - 1, by omega⟩
    obtain ⟨hg, hcompletes⟩ := (completes_iff hn g i).mpr hi
    rw [Nat.mul_succ] at hi
    have hlt : i < m.visits.length := by omega
    have hv := List.getElem?_eq_getElem hlt
    have hmem := List.getElem_mem hlt
    have hgen := (h.generation i _ hv).trans hg
    obtain ⟨leader, hl⟩ := Option.ne_none_iff_exists'.mp (ha _ hmem hgen)
    have hleader := (h.answered i _ leader hv hl).1
    rw [decide_eq_true hcompletes] at hleader
    subst hleader
    exact List.countP_pos_iff.mpr ⟨_, hmem, decide_eq_true ⟨hgen, hl⟩⟩
  split at hle <;> omega

end Count

end Sound

end Meeting

end LockTrace.Barrier
