import LockTrace.Proofs.Check.Exclusion
import LockTrace.Proofs.Check.Scan

namespace LockTrace.Exclusion

def Violation.index : Violation → Nat
  | .alreadyHeld i _ _ | .notHeld i _ => i

def Violation.event : Violation → Event
  | .alreadyHeld _ e _ | .notHeld _ e => e

/-- The events by which a lock is taken or given up. -/
def concerning (name : LockName) (es : List Event) : List Event :=
  es.filter fun e => e.lock = name ∧ (e.kind.takes = true ∨ e.kind.givesUp = true)

/-- Who takes a lock and who gives it up, in order. -/
def dealings (es : List Event) (name : LockName) : List (Kind × String) :=
  (concerning name es).map fun e => (e.kind, e.tid)

/-- Takes and give-ups in turn, a take first, and each give-up by whoever took last. -/
inductive Alternates : List (Kind × String) → Prop
  | nil : Alternates []
  | taken {k : Kind} (tid : String) (hk : k.takes = true) : Alternates [(k, tid)]
  | givenUp {k k' : Kind} {tid : String} {rs : List (Kind × String)} (hk : k.takes = true)
      (hk' : k'.givesUp = true) (h : Alternates rs) : Alternates ((k, tid) :: (k', tid) :: rs)

/-- What may still happen to a lock that somebody has, or nobody. -/
def Continues : Option String → List (Kind × String) → Prop
  | none, rs => Alternates rs
  | some tid, rs => rs = [] ∨ ∃ k rs', rs = (k, tid) :: rs' ∧ k.givesUp = true ∧ Alternates rs'

section Dealings

variable {k : Kind} {tid tid' : String} {rs : List (Kind × String)} {e : Event} {name : LockName}

theorem not_givesUp_of_takes (h : k.takes = true) : k.givesUp = false := by
  cases k <;> first | rfl | contradiction

theorem continues_nil (o : Option String) : Continues o [] := by
  cases o with
  | none => exact .nil
  | some tid => exact .inl rfl

theorem alternates_cons_iff :
    Alternates ((k, tid) :: rs) ↔ k.takes = true ∧ Continues (some tid) rs := by
  constructor
  · intro h
    cases h with
    | taken _ hk => exact ⟨hk, .inl rfl⟩
    | givenUp hk hk' h => exact ⟨hk, .inr ⟨_, _, rfl, hk', h⟩⟩
  · rintro ⟨hk, rfl | ⟨k', rs', rfl, hk', h⟩⟩
    · exact .taken tid hk
    · exact .givenUp hk hk' h

theorem continues_some_cons_iff :
    Continues (some tid) ((k, tid') :: rs) ↔ tid' = tid ∧ k.givesUp = true ∧ Alternates rs := by
  constructor
  · rintro (h | ⟨k', rs', heq, hk, h⟩)
    · contradiction
    · cases heq
      exact ⟨rfl, hk, h⟩
  · rintro ⟨rfl, hk, h⟩
    exact .inr ⟨k, rs, rfl, hk, h⟩

theorem dealings_cons_self (h : e.kind.takes = true ∨ e.kind.givesUp = true) (es : List Event) :
    dealings (e :: es) e.lock = (e.kind, e.tid) :: dealings es e.lock := by
  rw [dealings, concerning, List.filter_cons_of_pos (by simpa using h)]
  rfl

theorem dealings_cons_skip (h : e.lock = name → e.kind.takes = false ∧ e.kind.givesUp = false)
    (es : List Event) : dealings (e :: es) name = dealings es name := by
  have hskip : ¬ (e.lock = name ∧ (e.kind.takes = true ∨ e.kind.givesUp = true)) := by
    rintro ⟨hn, hk⟩
    simp [h hn] at hk
  rw [dealings, concerning, List.filter_cons_of_neg (by simpa using hskip)]
  rfl

theorem dealings_concerning_self (name : LockName) (es : List Event) :
    dealings (concerning name es) name = dealings es name := by
  rw [dealings, concerning, concerning, List.filter_filter]
  simp only [Bool.and_self]
  rfl

theorem dealings_concerning_ne {name' : LockName} (h : name' ≠ name) (es : List Event) :
    dealings (concerning name es) name' = [] := by
  rw [dealings, List.map_eq_nil_iff, concerning, List.filter_eq_nil_iff]
  intro e he hcon
  have hlock : e.lock = name := by
    have hmem := (List.mem_filter.mp he).2
    simp only [decide_eq_true_eq] at hmem
    exact hmem.1
  simp only [decide_eq_true_eq] at hcon
  exact h (hcon.1.symm.trans hlock)

end Dealings

section Step

variable {i : Nat} {hs hs' : Holders} {e : Event} {v : Violation}

/-- What the checker makes of one event. -/
def step (i : Nat) (hs : Holders) (e : Event) : Except Violation Holders :=
  if e.kind.takes then
    match hs.get e.lock with
    | some holder => .error (.alreadyHeld i e holder)
    | none => .ok (hs.set e.lock (some e.tid))
  else if e.kind.givesUp then
    if hs.get e.lock = some e.tid then .ok (hs.set e.lock none) else .error (.notHeld i e)
  else .ok hs

theorem scans : Check.Scans step runFrom where
  nil _ _ := rfl
  cons i hs e es := by
    rw [runFrom, step]
    by_cases ht : e.kind.takes = true
    · rw [if_pos ht, if_pos ht]
      cases hs.get e.lock <;> rfl
    · rw [if_neg ht, if_neg ht]
      by_cases hu : e.kind.givesUp = true
      · rw [if_pos hu, if_pos hu]
        by_cases hg : hs.get e.lock = some e.tid
        · rw [if_pos hg, if_pos hg]
          rfl
        · rw [if_neg hg, if_neg hg]
          rfl
      · rw [if_neg hu, if_neg hu]
        rfl

/-- An event that is accepted takes a free lock, gives up what its thread has, or does neither. -/
theorem step_ok_cases (h : step i hs e = .ok hs') :
    (e.kind.takes = true ∧ hs.get e.lock = none ∧ hs' = hs.set e.lock (some e.tid)) ∨
    (e.kind.givesUp = true ∧ hs.get e.lock = some e.tid ∧ hs' = hs.set e.lock none) ∨
    (e.kind.takes = false ∧ e.kind.givesUp = false ∧ hs' = hs) := by
  rw [step] at h
  by_cases ht : e.kind.takes = true
  · rw [if_pos ht] at h
    cases hg : hs.get e.lock with
    | none =>
      rw [hg] at h
      cases h
      exact .inl ⟨ht, rfl, rfl⟩
    | some holder =>
      rw [hg] at h
      contradiction
  · rw [if_neg ht] at h
    by_cases hu : e.kind.givesUp = true
    · rw [if_pos hu] at h
      by_cases hg : hs.get e.lock = some e.tid
      · rw [if_pos hg] at h
        cases h
        exact .inr (.inl ⟨hu, hg, rfl⟩)
      · rw [if_neg hg] at h
        contradiction
    · rw [if_neg hu] at h
      cases h
      exact .inr (.inr ⟨Bool.not_eq_true _ ▸ ht, Bool.not_eq_true _ ▸ hu, rfl⟩)

theorem of_step_ok_takes (h : step i hs e = .ok hs') (ht : e.kind.takes = true) :
    hs.get e.lock = none ∧ hs' = hs.set e.lock (some e.tid) := by
  rcases step_ok_cases h with ⟨_, hg, rfl⟩ | ⟨hu, _⟩ | ⟨hnot, _⟩
  · exact ⟨hg, rfl⟩
  · rw [not_givesUp_of_takes ht] at hu
    contradiction
  · rw [ht] at hnot
    contradiction

/-- An event that is refused takes what somebody has, or gives up what its thread does not have. -/
theorem step_error_cases (h : step i hs e = .error v) : v.index = i ∧ v.event = e ∧
    ((e.kind.takes = true ∧ hs.get e.lock ≠ none) ∨
    (e.kind.givesUp = true ∧ hs.get e.lock ≠ some e.tid)) := by
  rw [step] at h
  by_cases ht : e.kind.takes = true
  · rw [if_pos ht] at h
    cases hg : hs.get e.lock with
    | none =>
      rw [hg] at h
      contradiction
    | some holder =>
      rw [hg] at h
      cases h
      exact ⟨rfl, rfl, .inl ⟨ht, nofun⟩⟩
  · rw [if_neg ht] at h
    by_cases hu : e.kind.givesUp = true
    · rw [if_pos hu] at h
      by_cases hg : hs.get e.lock = some e.tid
      · rw [if_pos hg] at h
        contradiction
      · rw [if_neg hg] at h
        cases h
        exact ⟨rfl, rfl, .inr ⟨hu, hg⟩⟩
    · rw [if_neg hu] at h
      contradiction

/-- What may follow an event is what may begin with it. -/
theorem continues_of_step_ok (h : step i hs e = .ok hs') (es : List Event) (name : LockName) :
    Continues (hs'.get name) (dealings es name) ↔
      Continues (hs.get name) (dealings (e :: es) name) := by
  by_cases hn : e.lock = name
  · subst hn
    rcases step_ok_cases h with ⟨ht, hg, rfl⟩ | ⟨hu, hg, rfl⟩ | ⟨ht, hu, rfl⟩
    · rw [Table.get_set_self, hg, dealings_cons_self (.inl ht)]
      change _ ↔ Alternates _
      rw [alternates_cons_iff, and_iff_right ht]
    · rw [Table.get_set_self, hg, dealings_cons_self (.inr hu), continues_some_cons_iff,
        and_iff_right rfl, and_iff_right hu]
      rfl
    · rw [dealings_cons_skip fun _ => ⟨ht, hu⟩]
  · have hsame : hs'.get name = hs.get name := by
      rcases step_ok_cases h with ⟨_, _, rfl⟩ | ⟨_, _, rfl⟩ | ⟨_, _, rfl⟩
      · exact Table.get_set_ne _ _ hn
      · exact Table.get_set_ne _ _ hn
      · rfl
    rw [hsame, dealings_cons_skip fun hl => absurd hl hn]

theorem not_continues_of_step_error (h : step i hs e = .error v) (es : List Event) :
    ¬ Continues (hs.get e.lock) (dealings (e :: es) e.lock) := by
  obtain ⟨_, _, ⟨ht, hg⟩ | ⟨hu, hg⟩⟩ := step_error_cases h
  · obtain ⟨holder, hg⟩ := Option.ne_none_iff_exists'.mp hg
    rw [hg, dealings_cons_self (.inl ht), continues_some_cons_iff, not_givesUp_of_takes ht]
    exact fun h => Bool.false_ne_true h.2.1
  · rw [dealings_cons_self (.inr hu)]
    cases hget : hs.get e.lock with
    | none =>
      change ¬ Alternates _
      rw [alternates_cons_iff]
      rintro ⟨ht, _⟩
      rw [not_givesUp_of_takes ht] at hu
      contradiction
    | some holder =>
      rw [continues_some_cons_iff]
      rintro ⟨rfl, _⟩
      exact hg hget

theorem exists_runFrom_iff_continues (i : Nat) (hs : Holders) (es : List Event) :
    (∃ hs', runFrom i hs es = .ok hs') ↔
      ∀ name, Continues (hs.get name) (dealings es name) := by
  induction es generalizing i hs with
  | nil => exact iff_of_true ⟨hs, rfl⟩ fun name => continues_nil _
  | cons e es ih =>
    rw [scans.cons]
    cases hstep : step i hs e with
    | error v =>
      refine iff_of_false ?_ fun hall => not_continues_of_step_error hstep es (hall e.lock)
      rintro ⟨hs', h⟩
      contradiction
    | ok hs₁ => exact (ih (i + 1) hs₁).trans (forall_congr' (continues_of_step_ok hstep es))

/-- A holder keeps a lock as long as it does not give it up. -/
theorem get_of_runFrom {es : List Event} {tid : String} {name : LockName}
    (h : runFrom i hs es = .ok hs') (hg : hs.get name = some tid)
    (hno : ∀ e ∈ es, e.kind.givesUp = true → e.tid = tid → e.lock ≠ name) :
    hs'.get name = some tid := by
  induction es generalizing i hs with
  | nil =>
    cases h
    exact hg
  | cons e es ih =>
    obtain ⟨hs₁, hstep, hrest⟩ := scans.exists_of_cons h
    refine ih hrest ?_ fun e' he' => hno e' (List.mem_cons_of_mem e he')
    by_cases hn : e.lock = name
    · rcases step_ok_cases hstep with ⟨_, hfree, _⟩ | ⟨hu, hheld, _⟩ | ⟨_, _, rfl⟩
      · rw [hn, hg] at hfree
        contradiction
      · rw [hn, hg] at hheld
        exact absurd hn (hno e (List.mem_cons_self ..) hu (Option.some_inj.mp hheld).symm)
      · exact hg
    · rcases step_ok_cases hstep with ⟨_, _, rfl⟩ | ⟨_, _, rfl⟩ | ⟨_, _, rfl⟩
      · exact (Table.get_set_ne _ _ hn).trans hg
      · exact (Table.get_set_ne _ _ hn).trans hg
      · exact hg

end Step

theorem exists_run_iff_alternates (es : List Event) :
    (∃ hs, run es = .ok hs) ↔ ∀ name, Alternates (dealings es name) :=
  exists_runFrom_iff_continues 0 start es

/-- Between a take and the next one of the same lock its holder gives it up. -/
theorem exclusive_of_run {es : List Event} {hs : Holders} (h : run es = .ok hs) :
    Exclusive (es.map Event.gist) := by
  intro pre mid post k tid k' tid' name heq hk hk'
  obtain ⟨pre, es₁, rfl, -, heq₁⟩ := List.map_eq_append_iff.mp heq
  obtain ⟨e, es₂, rfl, he, heq₂⟩ := List.map_eq_cons_iff.mp heq₁
  obtain ⟨mid, es₃, rfl, hmid, heq₃⟩ := List.map_eq_append_iff.mp heq₂
  obtain ⟨e', post, rfl, he', -⟩ := List.map_eq_cons_iff.mp heq₃
  obtain ⟨hs₁, -, h₁⟩ := scans.exists_of_append h
  obtain ⟨hs₂, hstep, h₂⟩ := scans.exists_of_cons h₁
  obtain ⟨hs₃, hrun, h₃⟩ := scans.exists_of_append h₂
  obtain ⟨hs₄, hstep', -⟩ := scans.exists_of_cons h₃
  cases he
  have hkind : e'.kind = k' := congrArg (·.1) he'
  have hlock : e'.lock = e.lock := congrArg (·.2.2) he'
  have htaken : hs₂.get e.lock = some e.tid := by
    obtain ⟨-, rfl⟩ := of_step_ok_takes hstep hk
    exact Table.get_set_self ..
  have hfree : hs₃.get e.lock = none := by
    rw [← hlock]
    exact (of_step_ok_takes hstep' (hkind ▸ hk')).1
  by_contra hno
  have hheld : hs₃.get e.lock = some e.tid := by
    refine get_of_runFrom hrun htaken fun e'' he'' hu ht hn => hno ⟨e''.kind, hu, ?_⟩
    rw [← hmid, ← ht, ← hn]
    exact List.mem_map_of_mem he''
  rw [hfree] at hheld
  contradiction

/-- The checker accepts just the streams in which takes and give-ups of each lock alternate, each
give-up by whoever took the lock last, so that a lock which is held is never taken. All that counts
is these events of each lock by itself. If it refuses a stream it names the first record with which
they no longer alternate. -/
theorem run_decides_alternation (es : List Event) :
    ((∃ hs, run es = .ok hs) ↔ ∀ name, Alternates (dealings es name)) ∧
    ((∃ hs, run es = .ok hs) ↔ ∀ name, ∃ hs, run (concerning name es) = .ok hs) ∧
    ((∃ hs, run es = .ok hs) → Exclusive (es.map Event.gist)) ∧
    ∀ v, run es = .error v → es[v.index]? = some v.event ∧
      IsLeast {i | ¬ ∀ name, Alternates (dealings (es.take (i + 1)) name)} v.index := by
  refine ⟨exists_run_iff_alternates es, ?_, fun ⟨hs, h⟩ => exclusive_of_run h, fun v hv => ?_⟩
  · simp only [exists_run_iff_alternates]
    refine forall_congr' fun name => ⟨fun h name' => ?_, fun h => ?_⟩
    · by_cases hn : name' = name
      · rw [hn, dealings_concerning_self]
        exact h
      · rw [dealings_concerning_ne hn]
        exact .nil
    · have hself := h name
      rwa [dealings_concerning_self] at hself
  · obtain ⟨pre, e, post, hs, rfl, -, hstep, hleast⟩ :=
      scans.isLeast_of_error exists_run_iff_alternates hv
    obtain ⟨hindex, hevent, -⟩ := step_error_cases hstep
    rw [hindex, hevent]
    exact ⟨by simp, hleast⟩

end LockTrace.Exclusion
