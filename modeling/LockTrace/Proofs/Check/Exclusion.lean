import LockTrace.Proofs.Check.Stream

namespace LockTrace.Exclusion

open Book (Turn Course)

/-- What a record makes of the holders, if it does not contradict them. -/
def after? (hs : Holders) : Kind × String × LockName → Option Holders
  | (k, tid, name) =>
    if k.takes then if hs.get name = none then some (hs.set name (some tid)) else none
    else if k.givesUp then if hs.get name = some tid then some (hs.set name none) else none
    else some hs

theorem toOption_runFrom (i : Nat) (hs : Holders) (es : List Event) :
    (runFrom i hs es).toOption = (es.map Event.gist).foldlM after? hs := by
  induction es generalizing i hs with
  | nil => rfl
  | cons e es ih =>
    rw [List.map_cons, List.foldlM_cons, Event.gist, after?, runFrom]
    by_cases ht : e.kind.takes = true
    · rw [if_pos ht, if_pos ht]
      cases hg : hs.get e.lock with
      | none =>
        rw [if_pos rfl]
        exact ih ..
      | some holder => rfl
    · rw [if_neg ht, if_neg ht]
      by_cases hu : e.kind.givesUp = true
      · rw [if_pos hu, if_pos hu]
        by_cases hg : hs.get e.lock = some e.tid
        · rw [if_pos hg, if_pos hg]
          exact ih ..
        · rw [if_neg hg, if_neg hg]
          rfl
      · rw [if_neg hu, if_neg hu]
        exact ih ..

theorem exists_run_iff (es : List Event) :
    (∃ hs, run es = .ok hs) ↔ ∃ hs, (es.map Event.gist).foldlM after? start = some hs := by
  rw [← toOption_runFrom 0 start es, ← run]
  cases run es <;> simp [Except.toOption]

/-- The holders of a stream are the threads that hold something as far as the stream goes. -/
def Shows (title : ThreadId → String) (b : Book) (hs : Holders) : Prop :=
  ∀ name tid, hs.get name = some tid ↔ ∃ t, title t = tid ∧ name ∈ (b t).held

section Shows

variable {title : ThreadId → String} {b : Book} {hs : Holders} {t : ThreadId} {p : Page}
  {name : LockName} {k : Kind}

theorem mem_held_turn (hp : name ∈ p.held ↔ name ∈ (b t).held) (t' : ThreadId) :
    name ∈ (b.turn t p t').held ↔ name ∈ (b t').held := by
  by_cases ht : t' = t
  · rw [ht, Book.turn_self, hp]
  · rw [Book.turn_ne b ht]

theorem Shows.same (h : Shows title b hs) (hp : p.held = (b t).held) :
    Shows title (b.turn t p) hs := by
  intro name tid
  have hp' : name ∈ p.held ↔ name ∈ (b t).held := by rw [hp]
  simp only [h name tid, mem_held_turn hp']

theorem Shows.take (h : Shows title b hs) (hk : k.takes = true) (hf : b.Fresh name)
    (hp : p.held = name :: (b t).held) : ∃ hs', after? hs (k, title t, name) = some hs' ∧
      Shows title (b.turn t p) hs' := by
  have hnone (t' : ThreadId) : name ∉ (b t').held := fun hm => hf t' (Page.mem_names.mpr (.inl hm))
  have hfree : hs.get name = none := by
    by_contra hg
    obtain ⟨tid, hg⟩ := Option.ne_none_iff_exists'.mp hg
    obtain ⟨t', _, hm⟩ := (h name tid).mp hg
    exact hnone t' hm
  refine ⟨hs.set name (some (title t)), by rw [after?, if_pos hk, if_pos hfree], ?_⟩
  intro name' tid
  rw [Table.get_set]
  by_cases hn : name = name'
  · subst hn
    rw [if_pos rfl, Option.some_inj]
    constructor
    · rintro rfl
      refine ⟨t, rfl, ?_⟩
      rw [Book.turn_self, hp]
      exact List.mem_cons_self ..
    · rintro ⟨t', rfl, hm⟩
      by_cases ht : t' = t
      · rw [ht]
      · rw [Book.turn_ne b ht] at hm
        exact absurd hm (hnone t')
  · have hp' : name' ∈ p.held ↔ name' ∈ (b t).held := by
      rw [hp, List.mem_cons, or_iff_right (Ne.symm hn)]
    simp only [if_neg hn, h name' tid, mem_held_turn hp']

theorem Shows.giveUp (h : Shows title b hs) (hb : b.Apart) (hk : k.givesUp = true)
    (hm : name ∈ (b t).held) (hp : ∀ name', name' ∈ p.held ↔ name' ∈ (b t).held ∧ name' ≠ name) :
    ∃ hs', after? hs (k, title t, name) = some hs' ∧ Shows title (b.turn t p) hs' := by
  have hkt : ¬ k.takes = true := by
    intro hkt
    cases k <;> contradiction
  have hgot : hs.get name = some (title t) := (h name _).mpr ⟨t, rfl, hm⟩
  refine ⟨hs.set name none, by rw [after?, if_neg hkt, if_pos hk, if_pos hgot], ?_⟩
  intro name' tid
  rw [Table.get_set]
  by_cases hn : name = name'
  · subst hn
    rw [if_pos rfl]
    refine iff_of_false nofun ?_
    rintro ⟨t', -, hm'⟩
    by_cases ht : t' = t
    · rw [ht, Book.turn_self, hp] at hm'
      exact hm'.2 rfl
    · rw [Book.turn_ne b ht] at hm'
      exact ht (hb.across (Page.mem_names.mpr (.inl hm')) (Page.mem_names.mpr (.inl hm)))
  · have hp' : name' ∈ p.held ↔ name' ∈ (b t).held := by
      rw [hp, and_iff_left (Ne.symm hn)]
    simp only [if_neg hn, h name' tid, mem_held_turn hp']

/-- A name that the stream is wrong about cannot be given up. -/
theorem Shows.refuse (h : Shows title b hs) (hti : Function.Injective title) (hb : b.Apart)
    (hk : k.givesUp = true) (hm : name ∈ (b t).left) :
    after? hs (k, title t, name) = none := by
  have hkt : ¬ k.takes = true := by
    intro hkt
    cases k <;> contradiction
  have hgot : hs.get name ≠ some (title t) := by
    intro hg
    obtain ⟨t', ht, hm'⟩ := (h name _).mp hg
    obtain rfl : t' = t := hti ht
    exact Page.not_mem_left (hb.within _) hm' hm
  rw [after?, if_neg hkt, if_pos hk, if_neg hgot]

/-- One turn of a thread, unless it gives up a name that the stream is wrong about. -/
theorem Shows.turn (h : Shows title b hs) (hb : b.Apart) {d : Option Deed} (ht : Turn b t d p)
    (hl : ∀ d' ∈ d, ¬ d'.Lost) (hg : ∀ name kind, kind.givesUp = true →
      d = some (.record t kind name true) → name ∉ (b t).left) :
    ∃ hs', (d.toList.filterMap (Deed.gist? title)).foldlM after? hs = some hs' ∧
      Shows title (b.turn t p) hs' := by
  have one (r : Kind × String × LockName) (hs : Holders) :
      [r].foldlM after? hs = after? hs r := by
    rw [List.foldlM_cons]
    exact bind_pure _
  have held {g : Guard} (hm : g ∈ (b t).guards) (hn : g.name ∉ (b t).left) :
      g.name ∈ (b t).held :=
    (Page.mem_names.mp (List.mem_map_of_mem hm)).resolve_right hn
  cases ht with
  | quiet | balked | broke => exact ⟨hs, rfl, h.same rfl⟩
  | attempt name taken | denied name taken =>
    obtain rfl : taken = true := by simpa [Deed.Lost] using hl
    exact ⟨hs, rfl, h.same rfl⟩
  | acquired g taken _ _ hf =>
    obtain rfl : taken = true := by simpa [Deed.Lost] using hl
    obtain ⟨hs', he, h'⟩ := h.take (k := .acquired) rfl hf (p := { b t with
      asked := none, hand := g :: (b t).hand }) rfl
    exact ⟨hs', (one _ _).trans he, h'⟩
  | woke g taken _ _ hf =>
    obtain rfl : taken = true := by simpa [Deed.Lost] using hl
    obtain ⟨hs', he, h'⟩ := h.take (k := .woken) rfl hf (p := { b t with
      away := none, hand := g :: (b t).hand }) rfl
    exact ⟨hs', (one _ _).trans he, h'⟩
  | released g taken _ hm =>
    obtain rfl : taken = true := by simpa [Deed.Lost] using hl
    obtain ⟨hs', he, h'⟩ := h.giveUp hb (k := .released) rfl (held hm (hg _ _ rfl rfl))
      fun _ => Page.mem_held_drop (hb.within t) hm
    exact ⟨hs', (one _ _).trans he, h'⟩
  | slept g taken _ hm =>
    obtain rfl : taken = true := by simpa [Deed.Lost] using hl
    obtain ⟨hs', he, h'⟩ := h.giveUp hb (k := .wait) (p := { (b t).drop g with away := some g }) rfl
      (held hm (hg _ _ rfl rfl)) fun _ => Page.mem_held_drop (hb.within t) hm
    exact ⟨hs', (one _ _).trans he, h'⟩

end Shows

/-- A course without losses passes, unless it is fouled. -/
theorem shows_course {title : ThreadId → String} (hti : Function.Injective title)
    {ds : List Deed} {b : Book} (h : Course ds b) (hl : ∀ d ∈ ds, ¬ d.Lost) :
    Deed.Fouled ds ∧ (ds.filterMap (Deed.gist? title)).foldlM after? start = none ∨
    ¬ Deed.Fouled ds ∧ ∃ hs, (ds.filterMap (Deed.gist? title)).foldlM after? start = some hs ∧
      Shows title b hs := by
  induction h with
  | start =>
    refine .inr ⟨?_, start, rfl, ?_⟩
    · exact Deed.not_fouled_nil
    · simp [Shows, start, Page.held]
  | @turn ds b d p t h ht ih =>
    have hls : ∀ d ∈ ds, ¬ d.Lost := fun d hd => hl d (List.mem_append_left _ hd)
    have hld : ∀ d' ∈ d, ¬ d'.Lost := fun d' hd =>
      hl d' (List.mem_append_right _ (Option.mem_toList.mpr hd))
    rw [List.filterMap_append, List.foldlM_append]
    rcases ih hls with ⟨hf, he⟩ | ⟨hf, hs, he, hsh⟩
    · rw [he]
      exact .inl ⟨hf.append _, rfl⟩
    · rw [he]
      have hiff := h.fouled_append hls ht
      rw [or_iff_right hf] at hiff
      by_cases hfoul : Deed.Fouled (ds ++ d.toList)
      · obtain ⟨name, kind, hk, rfl, hm⟩ := hiff.mp hfoul
        refine .inl ⟨hfoul, ?_⟩
        have hr := hsh.refuse hti h.apart hk hm
        rw [Option.toList_some]
        simp [Deed.gist?, Deed.told?, hr]
      · refine .inr ⟨hfoul, ?_⟩
        exact hsh.turn h.apart ht hld fun name kind hk hd hm =>
          hfoul (hiff.mpr ⟨name, kind, hk, hd, hm⟩)

/-- Between the moment when a thread takes a name and the next when it gives the name up nobody
takes it. -/
def Exclusive (rs : List (Kind × String × LockName)) : Prop :=
  ∀ pre mid post k tid k' tid' name,
    rs = pre ++ (k, tid, name) :: (mid ++ (k', tid', name) :: post) →
    k.takes = true → k'.takes = true → ∃ k'', k''.givesUp = true ∧ (k'', tid, name) ∈ mid

/-- A name that was taken and not given up since is held. -/
def Holds (title : ThreadId → String) (b : Book) (rs : List (Kind × String × LockName)) : Prop :=
  ∀ pre mid k tid name, rs = pre ++ (k, tid, name) :: mid → k.takes = true →
    (∀ k', k'.givesUp = true → (k', tid, name) ∉ mid) → ∃ t, title t = tid ∧ name ∈ (b t).held

section Exclusive

variable {title : ThreadId → String} {b : Book} {rs : List (Kind × String × LockName)}
  {t : ThreadId} {p : Page} {name : LockName} {k : Kind}

theorem Exclusive.append (he : Exclusive rs) (hh : Holds title b rs)
    (hf : k.takes = true → b.Fresh name) {tid : String} : Exclusive (rs ++ [(k, tid, name)]) := by
  intro pre mid post k₁ tid₁ k₂ tid₂ name' heq h₁ h₂
  rw [← List.cons_append, ← List.append_assoc] at heq
  rcases split_append_singleton heq with ⟨rfl, hr, rfl⟩ | ⟨post', rfl, hrs⟩
  · -- The last record takes the name, so nobody held it before.
    cases hr
    by_contra hno
    obtain ⟨t, _, hm⟩ := hh pre mid k₁ tid₁ name rfl h₁ fun k' hk' hm => hno ⟨k', hk', hm⟩
    exact hf h₂ t (Page.mem_names.mpr (.inl hm))
  · rw [List.append_assoc] at hrs
    exact he pre mid post' k₁ tid₁ k₂ tid₂ name' hrs h₁ h₂

theorem Holds.append (hh : Holds title b rs)
    (hk : k.takes = true → name ∈ p.held)
    (hp : ∀ name' ∈ (b t).held, (k.givesUp = true → name' ≠ name) → name' ∈ p.held) :
    Holds title (b.turn t p) (rs ++ [(k, title t, name)]) := by
  intro pre mid k₁ tid₁ name₁ heq h₁ hno
  rcases split_append_singleton heq with ⟨rfl, hr, rfl⟩ | ⟨mid', rfl, hrs⟩
  · cases hr
    refine ⟨t, rfl, ?_⟩
    rw [Book.turn_self]
    exact hk h₁
  · obtain ⟨t', ht', hm⟩ := hh pre mid' k₁ tid₁ name₁ hrs h₁ fun k' hk' hm =>
      hno k' hk' (List.mem_append_left _ hm)
    refine ⟨t', ht', ?_⟩
    by_cases ht : t' = t
    · subst ht
      rw [Book.turn_self]
      refine hp name₁ hm ?_
      rintro hg rfl
      exact hno k hg (by simp [ht'])
    · rw [Book.turn_ne b ht]
      exact hm

theorem Holds.same (hh : Holds title b rs) (hp : p.held = (b t).held) :
    Holds title (b.turn t p) rs := by
  intro pre mid k tid name heq hk hno
  obtain ⟨t', ht', hm⟩ := hh pre mid k tid name heq hk hno
  exact ⟨t', ht', (mem_held_turn (by rw [hp]) t').mpr hm⟩

end Exclusive

/-- In a course without losses no name is taken that is not given up, fouled or not. -/
theorem exclusive_course (title : ThreadId → String) {ds : List Deed} {b : Book}
    (h : Course ds b) (hl : ∀ d ∈ ds, ¬ d.Lost) :
    Exclusive (ds.filterMap (Deed.gist? title)) ∧
      Holds title b (ds.filterMap (Deed.gist? title)) := by
  induction h with
  | start =>
    constructor
    · intro pre mid post k tid k' tid' name heq
      simp at heq
    · intro pre mid k tid name heq
      simp at heq
  | @turn ds b d p t h ht ih =>
    obtain ⟨he, hh⟩ := ih fun d hd => hl d (List.mem_append_left _ hd)
    have hld : ∀ d' ∈ d, ¬ d'.Lost := fun d' hd =>
      hl d' (List.mem_append_right _ (Option.mem_toList.mpr hd))
    rw [List.filterMap_append]
    have hn := h.apart.within t
    have quiet (hp : p.held = (b t).held) : Exclusive (ds.filterMap (Deed.gist? title) ++ []) ∧
        Holds title (b.turn t p) (ds.filterMap (Deed.gist? title) ++ []) := by
      rw [List.append_nil]
      exact ⟨he, hh.same hp⟩
    have passes {k : Kind} {name : LockName} {p : Page} (hk : k.takes = false)
        (hp : ∀ name' ∈ (b t).held, (k.givesUp = true → name' ≠ name) → name' ∈ p.held) :
        Exclusive (ds.filterMap (Deed.gist? title) ++ [(k, title t, name)]) ∧
          Holds title (b.turn t p) (ds.filterMap (Deed.gist? title) ++ [(k, title t, name)]) := by
      have hno : ¬ k.takes = true := by
        rw [hk]
        exact Bool.false_ne_true
      exact ⟨he.append hh (absurd · hno), hh.append (absurd · hno) hp⟩
    cases ht with
    | quiet | balked | broke => exact quiet rfl
    | attempt name taken | denied name taken =>
      obtain rfl : taken = true := by simpa [Deed.Lost] using hld
      exact passes rfl fun _ hm _ => hm
    | acquired g taken _ _ hf | woke g taken _ _ hf =>
      obtain rfl : taken = true := by simpa [Deed.Lost] using hld
      exact ⟨he.append hh fun _ => hf,
        hh.append (fun _ => List.mem_cons_self ..) fun _ hm _ => List.mem_cons_of_mem _ hm⟩
    | released g taken _ hg | slept g taken _ hg =>
      obtain rfl : taken = true := by simpa [Deed.Lost] using hld
      exact passes rfl fun _ hm hne => (Page.mem_held_drop hn hg).mpr ⟨hm, hne rfl⟩

section Run

variable {V : Type} {e : EmitterId} {home : LockName → MutexId} {o : Outlet}
  {w₀ w : World V Desk} {ds : List Deed} {room : Option Nat}

/-- At every moment of a run of traced calls, whether and whenever the sink closes, the stream shows
that no two threads hold a name at once. The checker accepts it until a guard is given up that a
panicked wait has left behind, and refuses it from then on. -/
theorem mutual_exclusion (h₀ : w₀.Fresh) (hc : w₀.recorder.Captures e o [] room)
    (h : World.Run (Call.Traced e home) Desk.Ticks w₀ ds w) :
    ∃ es, Check.events? (w.recorder.bytes o) = some es ∧ Exclusive (es.map Event.gist) ∧
      ((∃ hs, run es = .ok hs) ↔ ¬ Deed.Fouled ds) := by
  obtain ⟨es, title, xs, ys, b, hes, hti, hgist, rfl, hx, hxs, hys⟩ := h.exists_told h₀ hc
  refine ⟨es, hes, ?_, ?_⟩
  · rw [hgist]
    exact (exclusive_course title hx hxs).1
  · rw [exists_run_iff, hgist, Deed.fouled_append_of_untold hys]
    rcases shows_course hti hx hxs with ⟨hf, hn⟩ | ⟨hf, hs, hs', _⟩
    · rw [hn]
      simpa using hf
    · exact iff_of_true ⟨hs, hs'⟩ hf

theorem mutual_exclusion_sharedLock : ∃ w es hs, World.blank.Fresh ∧
    World.blank.recorder.Captures 0 .stdout [] none ∧
    World.Run (Call.Traced 0 World.twoNames) Desk.Ticks World.blank World.sharedLockDeeds w ∧
    Check.events? (w.recorder.bytes .stdout) = some es ∧ run es = .ok hs := by
  obtain ⟨w, h⟩ := World.exists_sharedLock
  obtain ⟨es, hes, _, hiff⟩ := mutual_exclusion World.fresh_blank World.captures_blank h
  obtain ⟨hs, hrun⟩ := hiff.mpr fun ⟨t, name, kind, _, hsub⟩ => by
    have := hsub.subset (List.mem_cons_self ..)
    simp [World.sharedLockDeeds] at this
  exact ⟨w, es, hs, World.fresh_blank, World.captures_blank, h, hes, hrun⟩

/-- A wait that panics is recorded as a sleep, and the release of its guard is refused. -/
theorem not_accepted_mixedWait : ∃ w es, World.blank.Fresh ∧
    World.blank.recorder.Captures 0 .stdout [] none ∧
    World.Run (Call.Traced 0 World.twoNames) Desk.Ticks World.blank World.mixedWaitDeeds w ∧
    Check.events? (w.recorder.bytes .stdout) = some es ∧ ∀ hs, run es ≠ .ok hs := by
  obtain ⟨w, h⟩ := World.exists_mixedWait
  obtain ⟨es, room, hs⟩ := h.exists_streams World.fresh_blank World.captures_blank
  refine ⟨w, es, World.fresh_blank, World.captures_blank, h, ?_, fun hs' hrun => ?_⟩
  · rw [hs.captures.bytes]
    exact Check.events?_bytes es
  · obtain ⟨_, hsome⟩ := (exists_run_iff es).mp ⟨hs', hrun⟩
    have hgist : World.mixedWaitDeeds.filterMap (Deed.gist? w.title) =
        [(.attempt, w.title 0, World.nameJ), (.acquired, w.title 0, World.nameJ),
          (.wait, w.title 0, World.nameJ), (.attempt, w.title 1, World.nameK),
          (.acquired, w.title 1, World.nameK), (.wait, w.title 1, World.nameK),
          (.released, w.title 1, World.nameK)] := rfl
    have hne : World.nameJ ≠ World.nameK := by decide
    rw [hs.gist, hgist] at hsome
    simp [after?, start, Kind.takes, Kind.givesUp, Table.get_set, hne] at hsome

end Run

end LockTrace.Exclusion
