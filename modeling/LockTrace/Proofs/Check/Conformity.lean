import LockTrace.Proofs.Check.Grammar
import LockTrace.Proofs.Check.Scan

namespace LockTrace

open scoped Computability

/-- The shortest way to be idle again. -/
def Phase.closing : Phase → List Kind
  | .idle => []
  | .attempting => [.tryFailed]
  | .held => [.released]
  | .waiting => [.woken, .released]

theorem Phase.foldlM_closing (p : Phase) : p.closing.foldlM next? p = some .idle := by
  cases p <;> rfl

namespace Lifecycle

section Grammar

/-- An attempt and its answer: a stay, in which the holder may wait and wake any number of times, or
a failure. -/
def turn : Language Kind := {[.attempt]} * ({[.acquired]} * holding + {[.tryFailed]})

/-- What a thread does to a lock, attempt after attempt. -/
def grammar : Language Kind := turn∗

/-- The beginnings of words of the grammar, by the place in it where they end: between two turns,
behind an attempt, inside a stay, or inside a wait of a stay. -/
def reaching : Phase → Language Kind
  | .idle => grammar
  | .attempting => grammar * {[.attempt]}
  | .held => grammar * {[.attempt, .acquired]} * {[.wait, .woken]}∗
  | .waiting => grammar * {[.attempt, .acquired]} * {[.wait, .woken]}∗ * {[.wait]}

theorem failure_mem_turn : [.attempt, .tryFailed] ∈ turn :=
  Language.append_mem_mul (Set.mem_singleton [Kind.attempt]) (.inr (Set.mem_singleton _))

theorem stay_mem_turn {c : List Kind} (hc : c ∈ ({[.wait, .woken]}∗ : Language Kind)) :
    [.attempt, .acquired] ++ c ++ [.released] ∈ turn := by
  have hheld : c ++ [.released] ∈ holding := Language.append_mem_mul hc (Set.mem_singleton _)
  have hstay : [.acquired] ++ (c ++ [.released]) ∈ {[Kind.acquired]} * holding :=
    Language.append_mem_mul (Set.mem_singleton _) hheld
  have hturn : [.attempt] ++ ([.acquired] ++ (c ++ [.released])) ∈ turn :=
    Language.append_mem_mul (Set.mem_singleton [Kind.attempt]) (.inl hstay)
  rw [List.append_assoc]
  exact hturn

/-- A turn is nothing but these. -/
theorem eq_of_mem_turn {ks : List Kind} (h : ks ∈ turn) : ks = [.attempt, .tryFailed] ∨
    ∃ c ∈ ({[.wait, .woken]}∗ : Language Kind), ks = [.attempt, .acquired] ++ c ++ [.released] := by
  obtain ⟨_, rfl, _, hanswer | rfl, rfl⟩ := Language.mem_mul.mp h
  · obtain ⟨_, rfl, _, ⟨c, hc, _, rfl, rfl⟩, rfl⟩ := Language.mem_mul.mp hanswer
    exact .inr ⟨c, hc, rfl⟩
  · exact .inl rfl

theorem concat_mem_kstar {l : Language Kind} {a b : List Kind} (ha : a ∈ l∗) (hb : b ∈ l) :
    a ++ b ∈ l∗ := by
  rw [← Language.one_add_kstar_mul_self_eq_kstar]
  exact .inr (Language.append_mem_mul ha hb)

theorem mem_reaching_held {a c : List Kind} (ha : a ∈ grammar)
    (hc : c ∈ ({[.wait, .woken]}∗ : Language Kind)) :
    a ++ [.attempt, .acquired] ++ c ∈ reaching .held :=
  Language.append_mem_mul (Language.append_mem_mul ha (Set.mem_singleton _)) hc

theorem eq_of_mem_reaching_held {ks : List Kind} (h : ks ∈ reaching .held) : ∃ a ∈ grammar,
    ∃ c ∈ ({[.wait, .woken]}∗ : Language Kind), ks = a ++ [.attempt, .acquired] ++ c := by
  obtain ⟨_, ⟨a, ha, _, rfl, rfl⟩, c, hc, rfl⟩ := Language.mem_mul.mp h
  exact ⟨a, ha, c, hc, rfl⟩

/-- One more kind leads from place to place as it leads from phase to phase. -/
theorem append_mem_reaching {p q : Phase} {k : Kind} {ks : List Kind} (hk : ks ∈ reaching p)
    (h : p.next? k = some q) : ks ++ [k] ∈ reaching q := by
  cases p <;> cases k <;> cases h
  case idle.attempt => exact Language.append_mem_mul hk (Set.mem_singleton [Kind.attempt])
  case attempting.acquired =>
    obtain ⟨a, ha, _, rfl, rfl⟩ := Language.mem_mul.mp hk
    have hheld := mem_reaching_held ha (Language.nil_mem_kstar _)
    rw [List.append_nil] at hheld
    rw [List.append_assoc]
    exact hheld
  case attempting.tryFailed =>
    obtain ⟨a, ha, _, rfl, rfl⟩ := Language.mem_mul.mp hk
    rw [List.append_assoc]
    exact concat_mem_kstar ha failure_mem_turn
  case held.wait => exact Language.append_mem_mul hk (Set.mem_singleton [Kind.wait])
  case waiting.woken =>
    obtain ⟨b, hb, _, rfl, rfl⟩ := Language.mem_mul.mp hk
    obtain ⟨a, ha, c, hc, rfl⟩ := eq_of_mem_reaching_held hb
    have hloop := mem_reaching_held ha (concat_mem_kstar hc (Set.mem_singleton _))
    rw [← List.append_assoc] at hloop
    rw [List.append_assoc _ [Kind.wait]]
    exact hloop
  case held.released =>
    obtain ⟨a, ha, c, hc, rfl⟩ := eq_of_mem_reaching_held hk
    rw [List.append_assoc, List.append_assoc]
    exact concat_mem_kstar ha (stay_mem_turn hc)

theorem mem_reaching_of_foldlM {p q : Phase} {ks ks' : List Kind} (hk : ks ∈ reaching p)
    (h : ks'.foldlM Phase.next? p = some q) : ks ++ ks' ∈ reaching q := by
  induction ks' generalizing ks p with
  | nil =>
    cases h
    rwa [List.append_nil]
  | cons k ks' ih =>
    obtain ⟨p', hp, h'⟩ := Option.bind_eq_some_iff.mp h
    have hstep := ih (append_mem_reaching hk hp) h'
    rwa [List.append_assoc] at hstep

theorem foldlM_loop {c : List Kind} (h : c ∈ ({[.wait, .woken]}∗ : Language Kind)) :
    c.foldlM Phase.next? .held = some .held := by
  refine foldlM_of_mem_kstar (fun ks hks => ?_) h
  obtain rfl := Set.mem_singleton_iff.mp hks
  rfl

theorem foldlM_grammar {ks : List Kind} (h : ks ∈ grammar) :
    ks.foldlM Phase.next? .idle = some .idle := by
  refine foldlM_of_mem_kstar (fun ks hks => ?_) h
  rcases eq_of_mem_turn hks with rfl | ⟨c, hc, rfl⟩
  · rfl
  · rw [List.append_assoc, List.foldlM_append]
    change (c ++ [Kind.released]).foldlM Phase.next? .held = some .idle
    rw [List.foldlM_append, foldlM_loop hc]
    rfl

theorem foldlM_of_mem_reaching {p : Phase} {ks : List Kind} (h : ks ∈ reaching p) :
    ks.foldlM Phase.next? .idle = some p := by
  have held {ks : List Kind} (h : ks ∈ reaching .held) :
      ks.foldlM Phase.next? .idle = some .held := by
    obtain ⟨a, ha, c, hc, rfl⟩ := eq_of_mem_reaching_held h
    rw [List.append_assoc, List.foldlM_append, foldlM_grammar ha]
    exact foldlM_loop hc
  cases p with
  | idle => exact foldlM_grammar h
  | attempting =>
    obtain ⟨a, ha, _, rfl, rfl⟩ := Language.mem_mul.mp h
    rw [List.foldlM_append, foldlM_grammar ha]
    rfl
  | held => exact held h
  | waiting =>
    obtain ⟨b, hb, _, rfl, rfl⟩ := Language.mem_mul.mp h
    rw [List.foldlM_append, held hb]
    rfl

/-- The places of the grammar are the phases. -/
theorem mem_reaching_iff {p : Phase} {ks : List Kind} :
    ks ∈ reaching p ↔ ks.foldlM Phase.next? .idle = some p := by
  constructor
  · exact foldlM_of_mem_reaching
  · intro h
    have hstart : [] ∈ reaching .idle := Language.nil_mem_kstar _
    exact mem_reaching_of_foldlM hstart h

/-- A word begins a word of the grammar just if it leads to some phase. -/
theorem exists_append_mem_grammar_iff {ks : List Kind} :
    (∃ rest, ks ++ rest ∈ grammar) ↔ (ks.foldlM Phase.next? .idle).isSome := by
  constructor
  · rintro ⟨rest, h⟩
    have hrun := foldlM_grammar h
    rw [List.foldlM_append] at hrun
    obtain ⟨p, hp, _⟩ := Option.bind_eq_some_iff.mp hrun
    rw [hp]
    rfl
  · intro h
    obtain ⟨p, hp⟩ := Option.isSome_iff_exists.mp h
    exact ⟨p.closing, mem_reaching_of_foldlM (mem_reaching_iff.mpr hp) p.foldlM_closing⟩

end Grammar

section Step

variable {i : Nat} {phases phases' : Phases} {e : Event} {es : List Event} {p : Phase}
  {v : Violation}

/-- What the checker makes of one event. -/
def step (i : Nat) (phases : Phases) (e : Event) : Except Violation Phases :=
  match (phases.get (e.tid, e.lock)).next? e.kind with
  | none => .error ⟨i, e, phases.get (e.tid, e.lock)⟩
  | some p => .ok (phases.set (e.tid, e.lock) p)

theorem step_of_some (h : (phases.get (e.tid, e.lock)).next? e.kind = some p) :
    step i phases e = .ok (phases.set (e.tid, e.lock) p) := by
  simp only [step, h]

theorem step_of_none (h : (phases.get (e.tid, e.lock)).next? e.kind = none) :
    step i phases e = .error ⟨i, e, phases.get (e.tid, e.lock)⟩ := by
  simp only [step, h]

theorem exists_of_step_ok (h : step i phases e = .ok phases') : ∃ p,
    (phases.get (e.tid, e.lock)).next? e.kind = some p ∧
      phases' = phases.set (e.tid, e.lock) p := by
  cases hn : (phases.get (e.tid, e.lock)).next? e.kind with
  | none =>
    rw [step_of_none hn] at h
    contradiction
  | some p =>
    rw [step_of_some hn] at h
    cases h
    exact ⟨p, rfl, rfl⟩

theorem eq_of_step_error (h : step i phases e = .error v) :
    v = ⟨i, e, phases.get (e.tid, e.lock)⟩ := by
  cases hn : (phases.get (e.tid, e.lock)).next? e.kind with
  | none =>
    rw [step_of_none hn] at h
    cases h
    rfl
  | some p =>
    rw [step_of_some hn] at h
    contradiction

theorem scans : Check.Scans step runFrom where
  nil _ _ := rfl
  cons i phases e es := by
    cases hn : (phases.get (e.tid, e.lock)).next? e.kind with
    | none =>
      rw [step_of_none hn]
      simp only [runFrom, hn]
      rfl
    | some p =>
      rw [step_of_some hn]
      simp only [runFrom, hn]
      rfl

/-- The kinds of each thread and lock lead to the phase that the stream ends in. -/
theorem foldlM_of_runFrom (h : runFrom i phases es = .ok phases') (tid : String)
    (name : LockName) : (kinds es tid name).foldlM Phase.next? (phases.get (tid, name)) =
      some (phases'.get (tid, name)) := by
  induction es generalizing i phases with
  | nil =>
    cases h
    rfl
  | cons e es ih =>
    obtain ⟨phases₁, hstep, hrest⟩ := scans.exists_of_cons h
    obtain ⟨p, hp, rfl⟩ := exists_of_step_ok hstep
    have hkinds := ih hrest
    by_cases hk : (e.tid, e.lock) = (tid, name)
    · obtain ⟨rfl, rfl⟩ := Prod.mk.inj hk
      rw [Table.get_set_self] at hkinds
      rw [kinds_cons_self, List.foldlM_cons, hp]
      exact hkinds
    · rw [Table.get_set_ne _ _ hk] at hkinds
      rw [kinds_cons_ne hk]
      exact hkinds

end Step

/-- What each thread does to each lock is the beginning of a word of the grammar. -/
def Conforms (es : List Event) : Prop :=
  ∀ tid name, ∃ rest, kinds es tid name ++ rest ∈ grammar

theorem exists_run_iff_conforms (es : List Event) : (∃ ps, run es = .ok ps) ↔ Conforms es := by
  simp only [exists_run_iff, Conforms, exists_append_mem_grammar_iff]

/-- The checker accepts just the streams in which each thread and lock conform to the grammar. If it
refuses a stream it names the first record with which the stream no longer conforms, and the place
of the grammar that the thread and the lock of that record had reached before it. -/
theorem run_decides_conformity (es : List Event) :
    ((∃ ps, run es = .ok ps) ↔ Conforms es) ∧
    ∀ v, run es = .error v → es[v.index]? = some v.event ∧
      IsLeast {i | ¬ Conforms (es.take (i + 1))} v.index ∧
      ∀ p, kinds (es.take v.index) v.event.tid v.event.lock ∈ reaching p ↔ p = v.phase := by
  refine ⟨exists_run_iff_conforms es, fun v hv => ?_⟩
  obtain ⟨pre, e, post, phases, rfl, hpre, hstep, hleast⟩ :=
    scans.isLeast_of_error exists_run_iff_conforms hv
  obtain rfl := eq_of_step_error hstep
  refine ⟨?_, hleast, fun p => ?_⟩
  · simp
  · have hreached : (kinds pre e.tid e.lock).foldlM Phase.next? .idle =
        some (phases.get (e.tid, e.lock)) := foldlM_of_runFrom hpre e.tid e.lock
    rw [List.take_left, mem_reaching_iff, hreached, Option.some_inj]
    exact eq_comm

end Lifecycle

end LockTrace
