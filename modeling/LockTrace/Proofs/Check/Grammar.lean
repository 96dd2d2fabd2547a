import LockTrace.Check.Lifecycle
import Mathlib.Computability.Language

namespace LockTrace

open scoped Computability

/-- The moves that are left when no attempt fails. -/
def Phase.ahead? (p : Phase) (k : Kind) : Option Phase :=
  if k = .tryFailed then none else p.next? k

namespace Lifecycle

/-- What may follow in a round after the lock was acquired. -/
def holding : Language Kind := {[.wait, .woken]}∗ * {[.released]}

/-- What one thread does to one lock, round after round. -/
def rounds : Language Kind := ({[.attempt, .acquired]} * holding)∗

/-- Leaves out each attempt that fails at once, with its failure, and an attempt at the end. -/
def settle : List Kind → List Kind
  | .attempt :: .tryFailed :: ks => settle ks
  | [.attempt] => []
  | k :: ks => k :: settle ks
  | [] => []

theorem settle_cons {k : Kind} (hk : k ≠ .attempt) (ks : List Kind) :
    settle (k :: ks) = k :: settle ks := by
  cases k <;> first | contradiction | rfl

section Rounds

/-- What may follow a phase. -/
def tail : Phase → Language Kind
  | .idle => rounds
  | .attempting => {[.acquired]} * (holding * rounds)
  | .held => holding * rounds
  | .waiting => {[.woken]} * (holding * rounds)

theorem append_mem_kstar {l : Language Kind} {a b : List Kind} (ha : a ∈ l) (hb : b ∈ l∗) :
    a ++ b ∈ l∗ := by
  rw [← Language.one_add_self_mul_kstar_eq_kstar]
  exact .inr (Language.append_mem_mul ha hb)

theorem cons_mem_tail {p q : Phase} {k : Kind} (h : p.ahead? k = some q) {ks : List Kind}
    (hk : ks ∈ tail q) : k :: ks ∈ tail p := by
  cases p <;> cases k <;> cases h
  case idle.attempt =>
    obtain ⟨_, rfl, _, ⟨c, hc, d, hd, rfl⟩, rfl⟩ := Language.mem_mul.mp hk
    exact append_mem_kstar (Language.append_mem_mul (Set.mem_singleton _) hc) hd
  case attempting.acquired => exact Language.append_mem_mul (Set.mem_singleton [.acquired]) hk
  case held.wait =>
    obtain ⟨_, rfl, _, ⟨_, ⟨c, hc, e, he, rfl⟩, d, hd, rfl⟩, rfl⟩ := Language.mem_mul.mp hk
    exact Language.append_mem_mul (a := Kind.wait :: .woken :: c ++ e)
      (Language.append_mem_mul (append_mem_kstar (Set.mem_singleton [.wait, .woken]) hc) he) hd
  case waiting.woken => exact Language.append_mem_mul (Set.mem_singleton [.woken]) hk
  case held.released =>
    exact Language.append_mem_mul (Language.append_mem_mul (Language.nil_mem_kstar _)
      (Set.mem_singleton [.released])) hk

theorem exists_mem_tail (p : Phase) : ∃ ks, ks ∈ tail p := by
  have idle : [] ∈ tail .idle := Language.nil_mem_kstar _
  have held : [.released] ∈ tail .held := cons_mem_tail rfl idle
  cases p with
  | idle => exact ⟨_, idle⟩
  | attempting => exact ⟨_, cons_mem_tail (k := .acquired) rfl held⟩
  | held => exact ⟨_, held⟩
  | waiting => exact ⟨_, cons_mem_tail (k := .woken) rfl held⟩

theorem exists_append_mem_tail {p q : Phase} {ks : List Kind}
    (h : ks.foldlM Phase.ahead? p = some q) : ∃ rest, ks ++ rest ∈ tail p := by
  induction ks generalizing p with
  | nil => exact exists_mem_tail p
  | cons k ks ih =>
    obtain ⟨p', hp, h'⟩ := Option.bind_eq_some_iff.mp h
    obtain ⟨rest, hr⟩ := ih h'
    exact ⟨rest, cons_mem_tail hp hr⟩

theorem foldlM_of_mem_kstar {f : Phase → Kind → Option Phase} {l : Language Kind} {p : Phase}
    (hl : ∀ ks ∈ l, ks.foldlM f p = some p) {ks : List Kind} (h : ks ∈ l∗) :
    ks.foldlM f p = some p := by
  obtain ⟨w, rfl, hw⟩ := Language.mem_kstar.mp h
  clear h
  induction w with
  | nil => rfl
  | cons y ys ih =>
    rw [List.flatten_cons, List.foldlM_append, hl y (hw y (List.mem_cons_self ..))]
    exact ih fun y' hy' => hw y' (List.mem_cons_of_mem y hy')

theorem foldlM_rounds {ks : List Kind} (h : ks ∈ rounds) :
    ks.foldlM Phase.ahead? .idle = some .idle := by
  refine foldlM_of_mem_kstar (fun ks hks => ?_) h
  obtain ⟨_, rfl, _, ⟨c, hc, _, rfl, rfl⟩, rfl⟩ := Language.mem_mul.mp hks
  have hloop : c.foldlM Phase.ahead? .held = some .held := by
    refine foldlM_of_mem_kstar (fun ks hks => ?_) hc
    obtain rfl := Set.mem_singleton_iff.mp hks
    rfl
  have hstart : [Kind.attempt, .acquired].foldlM Phase.ahead? .idle = some .held := rfl
  rw [List.foldlM_append, hstart]
  change (c ++ [Kind.released]).foldlM Phase.ahead? .held = some .idle
  rw [List.foldlM_append, hloop]
  rfl

/-- A word is the beginning of rounds just if it can be read from an idle phase on. -/
theorem exists_append_mem_rounds_iff {ks : List Kind} :
    (∃ rest, ks ++ rest ∈ rounds) ↔ (ks.foldlM Phase.ahead? .idle).isSome := by
  constructor
  · rintro ⟨rest, h⟩
    have hrun := foldlM_rounds h
    rw [List.foldlM_append] at hrun
    obtain ⟨p, hp, _⟩ := Option.bind_eq_some_iff.mp hrun
    rw [hp]
    rfl
  · intro h
    obtain ⟨p, hp⟩ := Option.isSome_iff_exists.mp h
    exact exists_append_mem_tail hp

end Rounds

/-- The kinds of a thread and a lock up to a moment when no attempt waits for its answer, and the
phase that they lead to. Only an idle thread may fail if `strict`. -/
inductive Story (strict : Bool) : List Kind → Phase → Prop
  | start : Story strict [] .idle
  | failed {ks : List Kind} {p : Phase} (h : Story strict ks p)
      (hs : strict = true → p = .idle) : Story strict (ks ++ [.attempt, .tryFailed]) p
  | acquired {ks : List Kind} (h : Story strict ks .idle) :
      Story strict (ks ++ [.attempt, .acquired]) .held
  | slept {ks : List Kind} (h : Story strict ks .held) : Story strict (ks ++ [.wait]) .waiting
  | woke {ks : List Kind} (h : Story strict ks .waiting) : Story strict (ks ++ [.woken]) .held
  | released {ks : List Kind} (h : Story strict ks .held) : Story strict (ks ++ [.released]) .idle

namespace Story

variable {strict : Bool} {ks : List Kind} {p : Phase}

theorem settle_append (h : Story strict ks p) (ks' : List Kind) :
    settle (ks ++ ks') = settle ks ++ settle ks' := by
  induction h generalizing ks' with
  | start => rfl
  | failed _ _ ih | acquired _ ih | slept _ ih | woke _ ih | released _ ih =>
    rw [List.append_assoc, ih, ih]
    simp [settle]

theorem ahead (h : Story strict ks p) : (settle ks).foldlM Phase.ahead? .idle = some p := by
  induction h with
  | start => rfl
  | failed h _ ih =>
    rw [h.settle_append, settle, settle, List.append_nil]
    exact ih
  | acquired h ih | slept h ih | woke h ih | released h ih =>
    rw [h.settle_append, List.foldlM_append, ih]
    rfl

theorem next (h : Story true ks p) : ks.foldlM Phase.next? .idle = some p := by
  induction h with
  | start => rfl
  | failed h hs ih =>
    obtain rfl := hs rfl
    rw [List.foldlM_append, ih]
    rfl
  | acquired h ih | slept h ih | woke h ih | released h ih =>
    rw [List.foldlM_append, ih]
    rfl

end Story

/-- The kinds of a thread and a lock at any moment: an attempt may have no answer yet. -/
def Standing (strict asked : Bool) (p : Phase) (ks : List Kind) : Prop :=
  ∃ ks₀, ks = ks₀ ++ (if asked then [.attempt] else []) ∧ Story strict ks₀ p ∧
    (strict = true → asked = true → p = .idle)

namespace Standing

variable {strict asked : Bool} {ks : List Kind} {p : Phase}

theorem story (h : Standing strict false p ks) : Story strict ks p := by
  obtain ⟨ks₀, rfl, hs, _⟩ := h
  rw [if_neg Bool.false_ne_true, List.append_nil]
  exact hs

theorem of_story (h : Story strict ks p) : Standing strict false p ks := by
  refine ⟨ks, ?_, h, nofun⟩
  rw [if_neg Bool.false_ne_true, List.append_nil]

theorem attempt (h : Standing strict false p ks) (hs : strict = true → p = .idle) :
    Standing strict true p (ks ++ [.attempt]) := ⟨ks, rfl, h.story, fun h _ => hs h⟩

theorem denied (h : Standing strict true p ks) : Standing strict false p (ks ++ [.tryFailed]) := by
  obtain ⟨ks₀, rfl, hs, hp⟩ := h
  rw [if_pos rfl, List.append_assoc]
  exact of_story (hs.failed fun h => hp h rfl)

theorem acquired (h : Standing strict true .idle ks) :
    Standing strict false .held (ks ++ [.acquired]) := by
  obtain ⟨ks₀, rfl, hs, _⟩ := h
  rw [if_pos rfl, List.append_assoc]
  exact of_story hs.acquired

/-- Whatever the phase, it is one in which a round may be. -/
theorem exists_append_mem_rounds (h : Standing strict asked p ks) :
    ∃ rest, settle ks ++ rest ∈ rounds := by
  obtain ⟨ks₀, rfl, hs, _⟩ := h
  have hsettle : settle (if asked = true then [.attempt] else []) = [] := by
    cases asked <;> rfl
  rw [exists_append_mem_rounds_iff, hs.settle_append, hsettle, List.append_nil, hs.ahead]
  rfl

theorem isSome_next (h : Standing true asked p ks) :
    (ks.foldlM Phase.next? .idle).isSome := by
  obtain ⟨ks₀, rfl, hs, hp⟩ := h
  rw [List.foldlM_append, hs.next]
  cases asked with
  | false => rfl
  | true =>
    obtain rfl := hp rfl rfl
    rfl

end Standing

/-- A sleeper gives the lock up. -/
def Broken (strict : Bool) (ks : List Kind) : Prop :=
  ∃ ks₀ k ks₁, ks = ks₀ ++ k :: ks₁ ∧ k.givesUp = true ∧ Story strict ks₀ .waiting

namespace Broken

variable {strict : Bool} {ks : List Kind}

theorem append (h : Broken strict ks) (ks' : List Kind) : Broken strict (ks ++ ks') := by
  obtain ⟨ks₀, k, ks₁, rfl, hk, hs⟩ := h
  exact ⟨ks₀, k, ks₁ ++ ks', by simp, hk, hs⟩

theorem not_exists_append_mem_rounds (h : Broken strict ks) :
    ¬ ∃ rest, settle ks ++ rest ∈ rounds := by
  obtain ⟨ks₀, k, ks₁, rfl, hk, hs⟩ := h
  have hne : k ≠ .attempt := by
    rintro rfl
    contradiction
  have hstuck : Phase.ahead? .waiting k = none := by
    cases k <;> first | rfl | contradiction
  rw [exists_append_mem_rounds_iff, hs.settle_append, settle_cons hne, List.foldlM_append, hs.ahead]
  change ¬ ((k :: settle ks₁).foldlM Phase.ahead? .waiting).isSome = true
  rw [List.foldlM_cons, hstuck]
  exact nofun

theorem next_eq_none (h : Broken true ks) : ks.foldlM Phase.next? .idle = none := by
  obtain ⟨ks₀, k, ks₁, rfl, hk, hs⟩ := h
  have hstuck : Phase.next? .waiting k = none := by
    cases k <;> first | rfl | contradiction
  rw [List.foldlM_append, hs.next]
  change (k :: ks₁).foldlM Phase.next? .waiting = none
  rw [List.foldlM_cons, hstuck]
  rfl

end Broken

/-- The kinds of the events of one thread and one lock. -/
def kinds (es : List Event) (tid : String) (name : LockName) : List Kind :=
  (es.filter fun e => e.tid = tid ∧ e.lock = name).map (·.kind)

theorem kinds_cons_self (e : Event) (es : List Event) :
    kinds (e :: es) e.tid e.lock = e.kind :: kinds es e.tid e.lock := by
  rw [kinds, List.filter_cons_of_pos (by simp), List.map_cons]
  rfl

theorem kinds_cons_ne {e : Event} {tid : String} {name : LockName}
    (h : (e.tid, e.lock) ≠ (tid, name)) (es : List Event) :
    kinds (e :: es) tid name = kinds es tid name := by
  rw [kinds, List.filter_cons_of_neg (by simpa using h)]
  rfl

theorem exists_runFrom_iff (i : Nat) (phases : Phases) (es : List Event) :
    (∃ ps, runFrom i phases es = .ok ps) ↔
      ∀ tid name, ((kinds es tid name).foldlM Phase.next? (phases.get (tid, name))).isSome := by
  induction es generalizing i phases with
  | nil => simp [runFrom, kinds]
  | cons e es ih =>
    cases hn : (phases.get (e.tid, e.lock)).next? e.kind with
    | none =>
      refine iff_of_false ?_ fun h => ?_
      · simp [runFrom, hn]
      · have := h e.tid e.lock
        rw [kinds_cons_self, List.foldlM_cons, hn] at this
        contradiction
    | some p =>
      have hrun : runFrom i phases (e :: es) =
          runFrom (i + 1) (phases.set (e.tid, e.lock) p) es := by simp only [runFrom, hn]
      rw [hrun, ih]
      refine forall_congr' fun tid => forall_congr' fun name => ?_
      by_cases hk : (e.tid, e.lock) = (tid, name)
      · obtain ⟨rfl, rfl⟩ := Prod.mk.inj hk
        rw [Table.get_set_self, kinds_cons_self, List.foldlM_cons, hn]
        rfl
      · rw [Table.get_set_ne _ _ hk, kinds_cons_ne hk]

/-- The checker accepts a stream just if it accepts what each thread does to each lock. -/
theorem exists_run_iff (es : List Event) : (∃ ps, run es = .ok ps) ↔
    ∀ tid name, ((kinds es tid name).foldlM Phase.next? .idle).isSome :=
  exists_runFrom_iff 0 start es

end Lifecycle

end LockTrace
