import LockTrace.Proofs.Check.Lifecycle

namespace LockTrace

open scoped List
open Book (Turn Course)

namespace Deed

/-- A thread attempts a name again that it has failed to get, since the mutex was poisoned. The
stream was not told of the failure. -/
def Retried (ds : List Deed) : Prop :=
  ∃ t name again, [.balked t name, .attempt t name again true] <+ ds

theorem not_retried_nil : ¬ Retried [] := by
  rintro ⟨t, name, again, hs⟩
  simpa using hs.length_le

theorem Retried.append {ds : List Deed} (h : Retried ds) (ds' : List Deed) :
    Retried (ds ++ ds') := by
  obtain ⟨t, name, again, hs⟩ := h
  exact ⟨t, name, again, hs.trans (List.sublist_append_left ds ds')⟩

theorem retried_append {ds : List Deed} {d : Deed} : Retried (ds ++ [d]) ↔ Retried ds ∨
    ∃ t name again, d = .attempt t name again true ∧ .balked t name ∈ ds := by
  simp only [Retried, pair_sublist_append_singleton, exists_or]

theorem retried_append_of_untold {ds ds' : List Deed} (h : ∀ d ∈ ds', d.told? = none) :
    Retried (ds ++ ds') ↔ Retried ds := by
  have hiff (t : ThreadId) (name : LockName) (again : Bool) :
      [.balked t name, .attempt t name again true] <+ ds ++ ds' ↔
        [.balked t name, .attempt t name again true] <+ ds :=
    pair_sublist_append_of_notMem fun hm => nomatch h _ hm
  simp only [Retried, hiff]

end Deed

namespace World

/-- A world in which nothing has happened yet, whose mutexes can be poisoned. -/
def brittle : World Unit Desk :=
  { blank with mutexes := ⟨{ value := (), poisons := true }, []⟩ }

theorem fresh_brittle : brittle.Fresh := ⟨fun _ => rfl, fun _ => rfl⟩

theorem poisons_brittle : brittle.Every (·.poisons = true) := fun _ => rfl

theorem captures_brittle : brittle.recorder.Captures 0 .stdout [] none := captures_blank

/-- One thread panics while it holds a mutex, and another one fails to get it. Before that one has
given it back, a third thread finds it held. -/
def poisonedLock : List (ThreadId × Happening Unit) :=
  [(0, .begin (.lock .waits 0 0 "J" 0)), (0, .advance), (0, .advance), (0, .advance),
    (0, .collect), (0, .begin (.leave .unwound 0)), (0, .advance), (0, .advance), (0, .collect),
    (1, .begin (.lock .waits 0 0 "J" 0)), (1, .advance), (2, .begin (.lock .tries 0 0 "J" 0)),
    (2, .advance), (1, .advance), (2, .advance), (1, .advance), (1, .collect), (2, .advance),
    (2, .collect)]

def poisonedLockDeeds : List Deed :=
  [.attempt 0 nameJ false true, .record 0 .acquired nameJ true, .record 0 .released nameJ true,
    .attempt 1 nameJ false true, .attempt 2 nameJ false true] ++ [.balked 1 nameJ] ++
    [.record 2 .tryFailed nameJ true]

theorem exists_poisonedLock :
    ∃ w, Run (Call.Traced 0 fun _ => 0) Desk.Ticks brittle poisonedLockDeeds w := by
  apply exists_run_of_play poisonedLock (by decide)
  simp [poisonedLock, Call.Traced]

/-- The thread that failed attempts it once more. -/
def retriedLock : List (ThreadId × Happening Unit) :=
  poisonedLock ++ [(1, .begin (.lock .tries 0 0 "J" 0)), (1, .advance)]

def retriedLockDeeds : List Deed := poisonedLockDeeds ++ [.attempt 1 nameJ false true]

theorem exists_retriedLock :
    ∃ w, Run (Call.Traced 0 fun _ => 0) Desk.Ticks brittle retriedLockDeeds w := by
  apply exists_run_of_play retriedLock (by decide)
  simp [retriedLock, poisonedLock, Call.Traced]

end World

namespace Lifecycle

section Standing

variable {asked : Bool} {p : Phase} {ks : List Kind}

theorem next_append_eq_none (h : ks.foldlM Phase.next? .idle = none) (ks' : List Kind) :
    (ks ++ ks').foldlM Phase.next? .idle = none := by
  rw [List.foldlM_append, h]
  rfl

/-- An attempt that has no answer yet is not followed by another one. -/
theorem Standing.next_retried (h : Standing true true p ks) :
    (ks ++ [Kind.attempt]).foldlM Phase.next? .idle = none := by
  obtain ⟨ks₀, rfl, hs, hp⟩ := h
  obtain rfl := hp rfl rfl
  rw [if_pos rfl, List.append_assoc, List.foldlM_append, hs.next]
  rfl

theorem Standing.of_nil (h : Standing true asked p []) : asked = false ∧ p = .idle := by
  obtain ⟨ks₀, he, hs, _⟩ := h
  cases asked with
  | true => simp at he
  | false =>
    obtain rfl : ks₀ = [] := by simpa using he.symm
    have hp : some Phase.idle = some p := hs.next
    exact ⟨rfl, (Option.some_inj.mp hp).symm⟩

/-- What comes first is an attempt. -/
theorem Standing.of_singleton {k : Kind} (h : Standing true asked p [k]) : k = .attempt := by
  have hsome := h.isSome_next
  cases k <;> first | rfl | contradiction

end Standing

section Turn

variable {b : Book} {t : ThreadId} {p : Page} {name : LockName} {ds : List Deed}

theorem eq_attempt_of_kind? {d : Deed} (ht : Turn b t (some d) p)
    (hk : d.kind? t name = some .attempt) : ∃ again, d = .attempt t name again true := by
  cases ht with
  | attempt n taken _ =>
    cases taken with
    | false => contradiction
    | true =>
      by_cases hn : n = name
      · subst hn
        exact ⟨_, rfl⟩
      · rw [kind?_ne rfl fun _ => hn] at hk
        contradiction
  | balked | broke => contradiction
  | denied n taken | acquired g taken | released g taken | slept g taken | woke g taken =>
    cases taken <;> simp [Deed.kind?, Deed.told?] at hk

/-- A thread that neither awaits an answer for a name nor holds anything under it has nothing to
say of the name before it attempts it. -/
theorem untold_of_turn {d : Option Deed} (ha : (b t).asked ≠ some name)
    (hp : (b t).phase name = .idle) (hn : (b t).names.Nodup) (ht : Turn b t d p)
    (hl : ∀ d' ∈ d, ¬ d'.Lost) (hs : ∀ name taken, d ≠ some (.attempt t name true taken))
    (hleft : ∀ name kind, kind.givesUp = true → d = some (.record t kind name true) →
      name ∉ (b t).left)
    (hd : ∀ again, d ≠ some (.attempt t name again true)) :
    p.asked ≠ some name ∧ p.phase name = .idle ∧ d.bind (Deed.kind? t name) = none := by
  have hstart : Stands true (b t) name [] := by
    rw [stands_unasked ha, hp]
    exact Standing.of_story .start
  have hbalked : d ≠ some (.balked t name) := by
    rintro rfl
    cases ht with
    | balked _ hasked _ => exact ha hasked
  have hturn := hstart.turn hn ht hl hbalked (fun _ => hs) hleft
  cases hk : d.bind (Deed.kind? t name) with
  | none =>
    rw [hk] at hturn
    obtain ⟨hasked, hphase⟩ := hturn.of_nil
    exact ⟨of_decide_eq_false hasked, hphase, rfl⟩
  | some k =>
    rw [hk] at hturn
    obtain rfl := Standing.of_singleton hturn
    obtain ⟨d, rfl, hk⟩ := Option.bind_eq_some_iff.mp hk
    obtain ⟨again, rfl⟩ := eq_attempt_of_kind? ht hk
    exact absurd rfl (hd again)

/-- What the stream tells of a thread and a name fits the thread's page, but for the attempt that
has failed on a poisoned mutex: to the stream it still awaits its answer. -/
structure Awaits (ds : List Deed) (p : Page) (t : ThreadId) (name : LockName) : Prop where
  stands : .balked t name ∉ ds → Stands true p name (told ds t name)
  asked : .balked t name ∈ ds → p.asked ≠ some name
  phase : .balked t name ∈ ds → p.phase name = .idle
  waiting : .balked t name ∈ ds → Standing true true .idle (told ds t name)

theorem Awaits.turn {d : Option Deed} (h : Awaits ds (b t) t name) (hn : (b t).names.Nodup)
    (ht : Turn b t d p) (hl : ∀ d' ∈ d, ¬ d'.Lost)
    (hs : ∀ name taken, d ≠ some (.attempt t name true taken))
    (hleft : ∀ name kind, kind.givesUp = true → d = some (.record t kind name true) →
      name ∉ (b t).left)
    (hd : .balked t name ∈ ds → ∀ again, d ≠ some (.attempt t name again true)) :
    Awaits (ds ++ d.toList) p t name := by
  have hmem : .balked t name ∈ ds ++ d.toList ↔
      .balked t name ∈ ds ∨ d = some (.balked t name) := by
    rw [List.mem_append, Option.mem_toList]
  by_cases hb : .balked t name ∈ ds
  · obtain ⟨hasked, hphase, hnone⟩ :=
      untold_of_turn (h.asked hb) (h.phase hb) hn ht hl hs hleft (hd hb)
    refine ⟨fun hb' => absurd (hmem.mpr (.inl hb)) hb', fun _ => hasked, fun _ => hphase, ?_⟩
    intro _
    rw [told_append, hnone, Option.toList_none, List.append_nil]
    exact h.waiting hb
  · by_cases hbalked : d = some (.balked t name)
    · subst hbalked
      cases ht with
      | balked _ ha hw =>
        have hstands := (stands_asked ha).mp (h.stands hb)
        obtain ⟨_, _, _, hphase⟩ := id hstands
        have hidle := hphase rfl rfl
        rw [hidle] at hstands
        refine ⟨fun hb' => absurd (hmem.mpr (.inr rfl)) hb', fun _ => nofun, fun _ => hidle, ?_⟩
        intro _
        rw [told_append]
        exact (List.append_nil (told ds t name)).symm ▸ hstands
    · refine ⟨fun _ => ?_, ?_, ?_, ?_⟩
      · rw [told_append]
        exact (h.stands hb).turn hn ht hl hbalked (fun _ => hs) hleft
      all_goals exact fun hb' => ((hmem.mp hb').elim hb hbalked).elim

/-- What another thread does leaves the thread and its records alone. -/
theorem Awaits.beside {d : Option Deed} {t' : ThreadId} {p' : Page} (h : Awaits ds p' t' name)
    (ht : Turn b t d p) (hne : t' ≠ t) : Awaits (ds ++ d.toList) p' t' name := by
  have hmem : .balked t' name ∈ ds ++ d.toList ↔ .balked t' name ∈ ds := by
    rw [List.mem_append, Option.mem_toList, or_iff_left]
    rintro rfl
    cases ht
    exact hne rfl
  refine ⟨fun hb => ?_, fun hb => h.asked (hmem.mp hb), fun hb => h.phase (hmem.mp hb), ?_⟩
  · rw [told_turn_ne ht hne]
    exact h.stands (mt hmem.mpr hb)
  · intro hb
    rw [told_turn_ne ht hne]
    exact h.waiting (hmem.mp hb)

theorem Awaits.isSome_next (h : Awaits ds p t name) :
    ((told ds t name).foldlM Phase.next? .idle).isSome := by
  by_cases hb : .balked t name ∈ ds
  · exact (h.waiting hb).isSome_next
  · exact (h.stands hb).isSome_next

end Turn

/-- A course without losses, in which nobody attempts what it holds, fits the pages of its book,
unless it is fouled or an attempt is made again after a failure that the stream was not told of. -/
theorem awaits_course {ds : List Deed} {b : Book} (h : Course ds b) (hl : ∀ d ∈ ds, ¬ d.Lost)
    (hs : ∀ t name taken, .attempt t name true taken ∉ ds) :
    (Deed.Fouled ds ∨ Deed.Retried ds) ∧
      (∃ t name, (told ds t name).foldlM Phase.next? .idle = none) ∨
    ¬ (Deed.Fouled ds ∨ Deed.Retried ds) ∧ ∀ t name, Awaits ds (b t) t name := by
  induction h with
  | start =>
    refine .inr ⟨not_or.mpr ⟨Deed.not_fouled_nil, Deed.not_retried_nil⟩, fun t name => ?_⟩
    refine ⟨fun _ => Standing.of_story ?_, ?_, ?_, ?_⟩
    · rw [Page.phase_idle (by simp [Page.names, Page.guards]) rfl]
      exact .start
    all_goals exact fun hm => absurd hm List.not_mem_nil
  | @turn ds b d p t h ht ih =>
    have hls : ∀ d ∈ ds, ¬ d.Lost := fun d hd => hl d (List.mem_append_left _ hd)
    have hin {d'} (hd : d' ∈ d) : d' ∈ ds ++ d.toList :=
      List.mem_append_right _ (Option.mem_toList.mpr hd)
    have ih := ih hls fun t name taken hm => hs t name taken (List.mem_append_left _ hm)
    rcases ih with ⟨hor, t', name, hstuck⟩ | ⟨hnor, hawaits⟩
    · refine .inl ⟨hor.imp (·.append _) (·.append _), t', name, ?_⟩
      rw [told_append]
      exact next_append_eq_none hstuck _
    · obtain ⟨hf, hr⟩ := not_or.mp hnor
      have hiff := h.fouled_append hls ht
      rw [or_iff_right hf] at hiff
      by_cases hfoul : Deed.Fouled (ds ++ d.toList)
      · obtain ⟨name, kind, hk, rfl, hm⟩ := hiff.mp hfoul
        have hb : .balked t name ∉ ds := fun hb => by
          have hphase := (hawaits t name).phase hb
          rw [Page.phase_waiting (fun hm' => Page.not_mem_left (h.apart.within t) hm' hm)
            (.inl hm)] at hphase
          contradiction
        refine .inl ⟨.inl hfoul, t, name, ?_⟩
        rw [told_append]
        exact (((hawaits t name).stands hb).broken (h.apart.within t) ht hk hm).next_eq_none
      by_cases hretry : Deed.Retried (ds ++ d.toList)
      · obtain ⟨t', name, again, rfl, hb⟩ : ∃ t' name again,
            d = some (.attempt t' name again true) ∧ .balked t' name ∈ ds := by
          cases d with
          | none => exact absurd (by simpa using hretry) hr
          | some d =>
            obtain ⟨t', name, again, rfl, hb⟩ := (Deed.retried_append.mp hretry).resolve_left hr
            exact ⟨t', name, again, rfl, hb⟩
        cases ht
        refine .inl ⟨.inr hretry, t, name, ?_⟩
        rw [told_append, Option.bind_some, kind?_self rfl]
        exact ((hawaits t name).waiting hb).next_retried
      · refine .inr ⟨not_or.mpr ⟨hfoul, hretry⟩, fun t' name => ?_⟩
        by_cases he : t' = t
        · subst he
          rw [Book.turn_self]
          refine (hawaits t' name).turn (h.apart.within t') ht (fun d' hd => hl d' (hin hd))
            (fun name taken hd => hs t' name taken (hin hd))
            (fun name kind hk hd hm => hfoul (hiff.mpr ⟨name, kind, hk, hd, hm⟩)) ?_
          rintro hb again rfl
          exact hretry (Deed.retried_append.mpr (.inr ⟨t', name, again, rfl, hb⟩))
        · rw [Book.turn_ne b he]
          exact (hawaits t' name).beside ht he

section Run

variable {V : Type} {e : EmitterId} {home : LockName → MutexId} {o : Outlet}
  {w₀ w : World V Desk} {ds : List Deed} {room : Option Nat}

/-- At every moment of a run of traced calls on mutexes of any sort, in which no thread attempts
what it holds, the checker accepts the stream until a guard is given up that a panicked wait has
left behind, or a name is attempted again after a failure on a poisoned mutex. -/
theorem accepted_iff (h₀ : w₀.Fresh) (hc : w₀.recorder.Captures e o [] room)
    (h : World.Run (Call.Traced e home) Desk.Ticks w₀ ds w)
    (hs : ∀ t name taken, .attempt t name true taken ∉ ds) :
    ∃ es, Check.events? (w.recorder.bytes o) = some es ∧
      ((∃ ps, run es = .ok ps) ↔ ¬ (Deed.Fouled ds ∨ Deed.Retried ds)) := by
  obtain ⟨es, title, xs, ys, b, hes, hti, hgist, rfl, hx, hxs, hys⟩ := h.exists_told h₀ hc
  have hs' : ∀ t name taken, .attempt t name true taken ∉ xs := fun t name taken hm =>
    hs t name taken (List.mem_append_left ys hm)
  refine ⟨es, hes, ?_⟩
  rw [Deed.fouled_append_of_untold hys, Deed.retried_append_of_untold hys, exists_run_iff]
  rcases awaits_course hx hxs hs' with ⟨hor, t, name, hstuck⟩ | ⟨hnor, hawaits⟩
  · refine iff_of_false (fun hall => ?_) (not_not.mpr hor)
    have hsome := hall (title t) name
    rw [kinds_title hgist hti, hstuck] at hsome
    contradiction
  · refine iff_of_true (fun tid name => ?_) hnor
    by_cases ht : ∃ t, title t = tid
    · obtain ⟨t, rfl⟩ := ht
      rw [kinds_title hgist hti]
      exact (hawaits t name).isSome_next
    · rw [kinds_eq_nil hgist (not_exists.mp ht)]
      rfl

/-- At every moment of a run on mutexes that holders may poison by panicking the checker accepts the
stream, until a thread attempts again what it has failed to get, and no longer from then on. -/
theorem accepted_until_retry (h₀ : w₀.Fresh) (hp : w₀.Every (·.poisons = true))
    (hc : w₀.recorder.Captures e o [] room)
    (h : World.Run (Call.Traced e home) Desk.Ticks w₀ ds w)
    (hs : ∀ t name taken, .attempt t name true taken ∉ ds) :
    ∃ es, Check.events? (w.recorder.bytes o) = some es ∧
      ((∃ ps, run es = .ok ps) ↔ ¬ Deed.Retried ds) := by
  have hfoul : ¬ Deed.Fouled ds := by
    rintro ⟨t, name, kind, _, hsub⟩
    exact h.not_broke h₀ hp t name (hsub.subset (List.mem_cons_self ..))
  obtain ⟨es, hes, hiff⟩ := accepted_iff h₀ hc h hs
  rw [or_iff_right hfoul] at hiff
  exact ⟨es, hes, hiff⟩

theorem accepted_until_retry_poisonedLock : ∃ w es ps, World.brittle.Fresh ∧
    World.brittle.Every (·.poisons = true) ∧ World.brittle.recorder.Captures 0 .stdout [] none ∧
    World.Run (Call.Traced 0 fun _ => 0) Desk.Ticks World.brittle World.poisonedLockDeeds w ∧
    Check.events? (w.recorder.bytes .stdout) = some es ∧ run es = .ok ps := by
  obtain ⟨w, h⟩ := World.exists_poisonedLock
  have hagain : ∀ t name taken, .attempt t name true taken ∉ World.poisonedLockDeeds := by
    simp [World.poisonedLockDeeds]
  obtain ⟨es, hes, hiff⟩ := accepted_until_retry World.fresh_brittle World.poisons_brittle
    World.captures_brittle h hagain
  have hretry : ¬ Deed.Retried World.poisonedLockDeeds := by
    rintro ⟨t, name, again, hsub⟩
    rcases pair_sublist_append_singleton.mp hsub with hsub | ⟨he, _⟩
    · rcases pair_sublist_append_singleton.mp hsub with hsub | ⟨he, _⟩
      · simpa using hsub.subset (List.mem_cons_self ..)
      · contradiction
    · contradiction
  obtain ⟨ps, hps⟩ := hiff.mpr hretry
  exact ⟨w, es, ps, World.fresh_brittle, World.poisons_brittle, World.captures_brittle, h, hes, hps⟩

/-- A thread that fails on a poisoned mutex and tries once more attempts a name twice in a row. -/
theorem not_accepted_retry : ∃ w es, World.brittle.Fresh ∧
    World.brittle.Every (·.poisons = true) ∧ World.brittle.recorder.Captures 0 .stdout [] none ∧
    World.Run (Call.Traced 0 fun _ => 0) Desk.Ticks World.brittle World.retriedLockDeeds w ∧
    (∀ t name taken, .attempt t name true taken ∉ World.retriedLockDeeds) ∧
    Check.events? (w.recorder.bytes .stdout) = some es ∧ ∀ ps, run es ≠ .ok ps := by
  obtain ⟨w, h⟩ := World.exists_retriedLock
  obtain ⟨es, room, hs⟩ := h.exists_streams World.fresh_brittle World.captures_brittle
  have hkinds : kinds es (w.title 1) World.nameJ = [.attempt, .attempt] := by
    rw [kinds_title hs.gist hs.tagged.title_injective]
    decide
  refine ⟨w, es, World.fresh_brittle, World.poisons_brittle, World.captures_brittle, h, ?_, ?_, ?_⟩
  · simp [World.retriedLockDeeds, World.poisonedLockDeeds]
  · rw [hs.captures.bytes]
    exact Check.events?_bytes es
  · intro ps hrun
    have hsome := (exists_run_iff es).mp ⟨ps, hrun⟩ (w.title 1) World.nameJ
    rw [hkinds] at hsome
    contradiction

end Run

end Lifecycle

end LockTrace
