import LockTrace.Check.Report
import LockTrace.Proofs.Check.Alternation
import LockTrace.Proofs.Check.Conformity
import Mathlib.Data.Set.Card

namespace LockTrace

instance : Fintype Phase :=
  ⟨{.idle, .attempting, .held, .waiting}, fun p => by cases p <;> decide⟩

instance : Fintype Kind := ⟨Kind.all.toFinset, fun k => by cases k <;> decide⟩

theorem Phase.held_of_next? {p q : Phase} {k : Kind} (h : p.next? k = some q) :
    (q = .held ↔ k.takes = true) ∧ (p = .held ↔ k.givesUp = true) := by
  cases p <;> cases k <;> cases h <;> decide

namespace Check

open Lifecycle (Phases)
open Exclusion (Holders)

/-- The threads whose phase with a lock is like this. -/
def threads (P : Phase → Prop) (ps : Phases) (name : LockName) : Set String :=
  {tid | P (ps.get (tid, name))}

section Threads

variable {P : Phase → Prop} {ps : Phases} {es : List Event} {name : LockName}

/-- Only a thread with a record can be in the middle of something. -/
theorem finite_threads (h : Lifecycle.run es = .ok ps) (hP : ¬ P .idle) :
    (threads P ps name).Finite := by
  refine (List.finite_toSet (es.map (·.tid))).subset fun tid htid => ?_
  by_contra hno
  have hkinds : Lifecycle.kinds es tid name = [] := by
    rw [Lifecycle.kinds, List.map_eq_nil_iff, List.filter_eq_nil_iff]
    intro e he hboth
    exact hno (List.mem_map.mpr ⟨e, he, (of_decide_eq_true hboth).1⟩)
  have hphase := Lifecycle.foldlM_of_runFrom h tid name
  rw [hkinds] at hphase
  have hidle : Phase.idle = ps.get (tid, name) := Option.some_inj.mp hphase
  refine hP ?_
  rw [hidle]
  exact htid

theorem threads_set_ne {tid : String} {name' : LockName} (q : Phase) (h : name' ≠ name) :
    threads P (ps.set (tid, name') q) name = threads P ps name := by
  ext tid'
  have hne : (tid, name') ≠ (tid', name) := fun heq => h (congrArg Prod.snd heq)
  change P ((ps.set (tid, name') q).get (tid', name)) ↔ P (ps.get (tid', name))
  rw [Table.get_set_ne _ _ hne]

theorem mem_threads_set {tid tid' : String} (q : Phase) :
    tid' ∈ threads P (ps.set (tid, name) q) name ↔
      if tid = tid' then P q else tid' ∈ threads P ps name := by
  change P ((ps.set (tid, name) q).get (tid', name)) ↔ _
  rw [Table.get_set]
  by_cases ht : tid = tid'
  · simp [ht]
  · have hne : (tid, name) ≠ (tid', name) := fun heq => ht (congrArg Prod.fst heq)
    rw [if_neg ht, if_neg hne]
    rfl

/-- One thread that moves on counts as long as its phase does. -/
theorem ncard_threads_set [DecidablePred P] (hfin : (threads P ps name).Finite) (tid : String)
    (q : Phase) :
    (threads P (ps.set (tid, name) q) name).ncard + (if P (ps.get (tid, name)) then 1 else 0) =
      (threads P ps name).ncard + if P q then 1 else 0 := by
  have hmem : tid ∈ threads P ps name ↔ P (ps.get (tid, name)) := Iff.rfl
  by_cases hq : P q
  · have hset : threads P (ps.set (tid, name) q) name = insert tid (threads P ps name) := by
      ext tid'
      rw [mem_threads_set, Set.mem_insert_iff]
      by_cases ht : tid = tid' <;> simp [ht, hq, eq_comm]
    rw [hset, if_pos hq]
    by_cases hp : P (ps.get (tid, name))
    · rw [if_pos hp, Set.insert_eq_of_mem (hmem.mpr hp)]
    · rw [if_neg hp, Set.ncard_insert_of_notMem (mt hmem.mp hp) hfin]
  · have hset : threads P (ps.set (tid, name) q) name = threads P ps name \ {tid} := by
      ext tid'
      rw [mem_threads_set, Set.mem_sdiff, Set.mem_singleton_iff]
      by_cases ht : tid = tid' <;> simp [ht, hq, eq_comm]
    rw [hset, if_neg hq, Nat.add_zero]
    by_cases hp : P (ps.get (tid, name))
    · rw [if_pos hp, Set.ncard_sdiff_singleton_add_one (hmem.mpr hp) hfin]
    · rw [if_neg hp, Set.sdiff_singleton_eq_self (mt hmem.mp hp), Nat.add_zero]

end Threads

section Count

variable {es : List Event} {e : Event} {name : LockName}

/-- How many events of a lock are of these kinds. -/
def total (es : List Event) (ks : List Kind) (name : LockName) : Nat :=
  (ks.map fun k => count es k name).sum

theorem count_concat (k : Kind) : count (es ++ [e]) k name =
    count es k name + if e.kind = k ∧ e.lock = name then 1 else 0 := by
  rw [count, List.countP_append, List.countP_singleton]
  simp [count]

theorem total_concat_self (ks : List Kind) :
    total (es ++ [e]) ks e.lock = total es ks e.lock + ks.count e.kind := by
  induction ks with
  | nil => rfl
  | cons k ks ih =>
    have hcons (es : List Event) : total es (k :: ks) e.lock =
        count es k e.lock + total es ks e.lock := rfl
    rw [hcons, hcons, ih, count_concat, List.count_cons]
    by_cases hk : e.kind = k
    · simp only [hk, and_self, if_true, beq_self_eq_true]
      omega
    · have hk' : ¬ (k == e.kind) = true := fun h => hk (eq_of_beq h).symm
      simp only [hk, false_and, if_false, if_neg hk', Nat.add_zero, Nat.add_assoc]

theorem total_concat_ne (h : e.lock ≠ name) (ks : List Kind) :
    total (es ++ [e]) ks name = total es ks name := by
  simp only [total, count_concat, h, and_false, if_false, Nat.add_zero]

/-- Some kinds of events bring a thread into phases like this, and others take it out of them. -/
def Balanced (P : Phase → Prop) [DecidablePred P] (ups downs : List Kind) : Prop :=
  ¬ P .idle ∧ ∀ p k q, Phase.next? p k = some q →
    (if P p then 1 else 0) + ups.count k = (if P q then 1 else 0) + downs.count k

instance (P : Phase → Prop) [DecidablePred P] (ups downs : List Kind) :
    Decidable (Balanced P ups downs) := inferInstanceAs (Decidable (_ ∧ _))

/-- The former are more than the latter by the threads that are in such a phase. -/
theorem Balanced.total_eq {P : Phase → Prop} [DecidablePred P] {ups downs : List Kind}
    (hb : Balanced P ups downs) {ps : Phases} (h : Lifecycle.run es = .ok ps) (name : LockName) :
    total es ups name = total es downs name + (threads P ps name).ncard := by
  obtain ⟨hidle, hstep⟩ := hb
  induction es using List.reverseRecOn generalizing ps with
  | nil =>
    cases h
    have hnone : threads P Lifecycle.start name = ∅ :=
      Set.eq_empty_of_forall_notMem fun _ htid => hidle htid
    rw [hnone, Set.ncard_empty]
    simp [total, count]
  | append_singleton es e ih =>
    obtain ⟨ps₁, hes, hlast⟩ := Lifecycle.scans.exists_of_concat h
    obtain ⟨q, hq, rfl⟩ := Lifecycle.exists_of_step_ok hlast
    have hbefore := ih hes
    by_cases hn : e.lock = name
    · subst hn
      have hfin : (threads P ps₁ e.lock).Finite := finite_threads hes hidle
      have hcard := ncard_threads_set hfin e.tid q
      have hmove := hstep _ _ _ hq
      rw [total_concat_self, total_concat_self]
      omega
    · rw [total_concat_ne hn, total_concat_ne hn, threads_set_ne q hn]
      exact hbefore

end Count

/-- Whoever has a lock in the eyes of one checker is held to have it by the other. -/
theorem get_eq_some_iff_held {es : List Event} {ps : Phases} {hs : Holders}
    (hl : Lifecycle.run es = .ok ps) (hx : Exclusion.run es = .ok hs) (name : LockName)
    (tid : String) : hs.get name = some tid ↔ ps.get (tid, name) = .held := by
  induction es using List.reverseRecOn generalizing ps hs tid with
  | nil =>
    cases hl
    cases hx
    exact iff_of_false nofun nofun
  | append_singleton es e ih =>
    obtain ⟨ps₁, hps, hphase⟩ := Lifecycle.scans.exists_of_concat hl
    obtain ⟨hs₁, hhs, hholder⟩ := Exclusion.scans.exists_of_concat hx
    obtain ⟨q, hq, rfl⟩ := Lifecycle.exists_of_step_ok hphase
    have hbefore := ih hps hhs
    obtain ⟨htakes, hgives⟩ := Phase.held_of_next? hq
    by_cases hn : e.lock = name
    · subst hn
      by_cases ht : e.tid = tid
      · subst ht
        rw [Table.get_set_self]
        rcases Exclusion.step_ok_cases hholder with ⟨hk, _, rfl⟩ | ⟨hk, _, rfl⟩ | ⟨hk, hu, rfl⟩
        · exact iff_of_true (Table.get_set_self ..) (htakes.mpr hk)
        · rw [Table.get_set_self]
          refine iff_of_false nofun fun hq => ?_
          rw [Exclusion.not_givesUp_of_takes (htakes.mp hq)] at hk
          contradiction
        · refine iff_of_false (fun hg => ?_) fun hq => ?_
          · rw [hgives.mp ((hbefore _).mp hg)] at hu
            contradiction
          · rw [htakes.mp hq] at hk
            contradiction
      · have hne : (e.tid, e.lock) ≠ (tid, e.lock) := fun heq => ht (congrArg Prod.fst heq)
        rw [Table.get_set_ne _ _ hne, ← hbefore tid]
        rcases Exclusion.step_ok_cases hholder with ⟨_, hg, rfl⟩ | ⟨_, hg, rfl⟩ | ⟨_, _, rfl⟩
        · rw [Table.get_set_self, hg]
          exact iff_of_false (fun h => ht (Option.some_inj.mp h)) nofun
        · rw [Table.get_set_self, hg]
          exact iff_of_false nofun fun h => ht (Option.some_inj.mp h)
        · rfl
    · have hne : (e.tid, e.lock) ≠ (tid, name) := fun heq => hn (congrArg Prod.snd heq)
      rw [Table.get_set_ne _ _ hne, ← hbefore tid]
      rcases Exclusion.step_ok_cases hholder with ⟨_, _, rfl⟩ | ⟨_, _, rfl⟩ | ⟨_, _, rfl⟩
      · rw [Table.get_set_ne _ _ hn]
      · rw [Table.get_set_ne _ _ hn]
      · rfl

/-- In a stream that both checkers accept they agree on who holds each lock, and that it is one
thread at most. The counts of its events tell how many threads are in each phase: who attempts it,
who has it or waits with it, who waits, and who holds it. Once everybody is idle each lock was
released as often as acquired, each sleeper has woken, and each attempt has its answer. -/
theorem checkers_agree {es : List Event} {ps : Phases} {hs : Holders}
    (hl : Lifecycle.run es = .ok ps) (hx : Exclusion.run es = .ok hs) (name : LockName) :
    (∀ tid, hs.get name = some tid ↔ ps.get (tid, name) = .held) ∧
    (threads (· = .held) ps name).Subsingleton ∧
    (threads (· ≠ .idle) ps name).Finite ∧
    count es .attempt name = count es .acquired name + count es .tryFailed name +
      (threads (· = .attempting) ps name).ncard ∧
    count es .acquired name = count es .released name +
      (threads (fun p => p = .held ∨ p = .waiting) ps name).ncard ∧
    count es .wait name = count es .woken name + (threads (· = .waiting) ps name).ncard ∧
    (count es .acquired name + count es .woken name =
        count es .released name + count es .wait name ∨
      count es .acquired name + count es .woken name =
        count es .released name + count es .wait name + 1) ∧
    ((∀ tid, ps.get (tid, name) = .idle) → count es .acquired name = count es .released name ∧
      count es .wait name = count es .woken name ∧
      count es .attempt name = count es .acquired name + count es .tryFailed name) := by
  have hheld := get_eq_some_iff_held hl hx name
  have hone : (threads (· = .held) ps name).Subsingleton := by
    intro tid ht tid' ht'
    have hsome := (hheld tid).mpr ht
    rw [(hheld tid').mpr ht'] at hsome
    exact (Option.some_inj.mp hsome).symm
  have hattempting : Balanced (· = .attempting) [.attempt] [.acquired, .tryFailed] := by decide
  have hstaying : Balanced (fun p => p = .held ∨ p = .waiting) [.acquired] [.released] := by decide
  have hwaiting : Balanced (· = .waiting) [.wait] [.woken] := by decide
  have hholding : Balanced (· = .held) [.acquired, .woken] [.released, .wait] := by decide
  have hattempts := hattempting.total_eq hl name
  have hstays := hstaying.total_eq hl name
  have hwaits := hwaiting.total_eq hl name
  have hholds := hholding.total_eq hl name
  have hfinite : (threads (· = .held) ps name).Finite := finite_threads hl (by decide)
  have hcard : (threads (· = .held) ps name).ncard ≤ 1 :=
    (Set.ncard_le_one hfinite).mpr fun _ ha _ hb => hone ha hb
  have hnone (P : Phase → Prop) (hidle : ∀ tid, ps.get (tid, name) = .idle) (hP : ¬ P .idle) :
      (threads P ps name).ncard = 0 := by
    have hempty : threads P ps name = ∅ :=
      Set.eq_empty_of_forall_notMem fun tid htid => hP (hidle tid ▸ htid)
    rw [hempty, Set.ncard_empty]
  simp only [total, List.map_cons, List.map_nil, List.sum_cons, List.sum_nil, Nat.add_zero]
    at hattempts hstays hwaits hholds
  refine ⟨hheld, hone, finite_threads hl (by decide), hattempts, hstays, hwaits, by omega, ?_⟩
  intro hidle
  rw [hnone _ hidle (by decide)] at hattempts hstays hwaits
  exact ⟨hstays, hwaits, hattempts⟩

/-- A thread sleeps, another one has taken its lock, and a third one attempts it. -/
def crowded : List Event :=
  [(.attempt, "1"), (.acquired, "1"), (.attempt, "2"), (.wait, "1"), (.acquired, "2"),
    (.attempt, "3")].map fun (k, tid) => ⟨k, ⟨0⟩, tid, World.nameJ⟩

theorem checkers_agree_crowded : ∃ ps hs, Lifecycle.run crowded = .ok ps ∧
    Exclusion.run crowded = .ok hs ∧ hs.get World.nameJ = some "2" ∧
    ps.get ("2", World.nameJ) = .held ∧ (threads (· = .attempting) ps World.nameJ).ncard = 1 ∧
    (threads (fun p => p = .held ∨ p = .waiting) ps World.nameJ).ncard = 2 ∧
    (threads (· = .waiting) ps World.nameJ).ncard = 1 := by
  have hl : ∃ ps, Lifecycle.run crowded = .ok ps := ⟨_, rfl⟩
  have hx : ∃ hs, Exclusion.run crowded = .ok hs ∧ hs.get World.nameJ = some "2" := ⟨_, rfl, rfl⟩
  obtain ⟨ps, hl⟩ := hl
  obtain ⟨hs, hx, hholder⟩ := hx
  obtain ⟨hheld, -, -, hattempts, hstays, hwaits, -⟩ := checkers_agree hl hx World.nameJ
  have hcounts : count crowded .attempt World.nameJ = 3 ∧ count crowded .acquired World.nameJ = 2 ∧
      count crowded .tryFailed World.nameJ = 0 ∧ count crowded .released World.nameJ = 0 ∧
      count crowded .wait World.nameJ = 1 ∧ count crowded .woken World.nameJ = 0 := by decide
  exact ⟨ps, hs, hl, hx, hholder, (hheld "2").mp hholder, by omega, by omega, by omega⟩

end Check

end LockTrace
