import LockTrace.Proofs.Check.Grammar
import LockTrace.Proofs.Check.Stream
import LockTrace.Proofs.Threads.Poison

namespace LockTrace

open Book (Turn Course)

/-- What the record of a deed, if there is one, says of a thread and a name. -/
def Deed.kind? (t : ThreadId) (name : LockName) (d : Deed) : Option Kind :=
  d.told?.bind fun r => if r.1 = t ∧ r.2.2 = name then some r.2.1 else none

/-- What the stream believes of a thread and a name. -/
def Page.phase (p : Page) (name : LockName) : Phase :=
  if name ∈ p.held then .held
  else if name ∈ p.left ∨ p.away.map (·.name) = some name then .waiting
  else .idle

namespace Page

variable {p p' : Page} {name : LockName}

theorem phase_held (h : name ∈ p.held) : p.phase name = .held := if_pos h

theorem phase_waiting (h : name ∉ p.held)
    (hw : name ∈ p.left ∨ p.away.map (·.name) = some name) : p.phase name = .waiting := by
  rw [phase, if_neg h, if_pos hw]

theorem phase_idle (h : name ∉ p.names) (hw : p.away = none) : p.phase name = .idle := by
  obtain ⟨hh, hl⟩ := not_or.mp (mt mem_names.mpr h)
  rw [phase, if_neg hh, if_neg]
  rw [hw]
  simp [hl]

theorem phase_congr (hh : name ∈ p'.held ↔ name ∈ p.held) (hl : name ∈ p'.left ↔ name ∈ p.left)
    (hw : p'.away.map (·.name) = some name ↔ p.away.map (·.name) = some name) :
    p'.phase name = p.phase name := by
  simp only [phase, hh, hl, hw]

end Page

namespace Lifecycle

/-- What a page says of a name fits the kinds that were recorded. -/
def Stands (strict : Bool) (p : Page) (name : LockName) (ks : List Kind) : Prop :=
  Standing strict (p.asked = some name) (p.phase name) ks

section Turn

variable {strict : Bool} {b : Book} {t : ThreadId} {d : Option Deed} {p p' : Page}
  {name : LockName} {ks : List Kind}

theorem stands_asked (ha : p.asked = some name) :
    Stands strict p name ks ↔ Standing strict true (p.phase name) ks := by
  rw [Stands, ha, decide_eq_true rfl]

theorem stands_unasked (ha : p.asked ≠ some name) :
    Stands strict p name ks ↔ Standing strict false (p.phase name) ks := by
  rw [Stands, decide_eq_false ha]

theorem Stands.congr (h : Stands strict p name ks)
    (ha : p'.asked = some name ↔ p.asked = some name) (hp : p'.phase name = p.phase name) :
    Stands strict p' name ks := by
  rw [Stands, hp]
  simp only [ha]
  exact h

theorem kind?_self {d : Deed} {k : Kind} (hd : d.told? = some (t, k, name)) :
    d.kind? t name = some k := by
  rw [Deed.kind?, hd, Option.bind_some, if_pos ⟨rfl, rfl⟩]

theorem kind?_ne {d : Deed} {k : Kind} {t' : ThreadId} {name' : LockName}
    (hd : d.told? = some (t', k, name')) (hne : t' = t → name' ≠ name) : d.kind? t name = none := by
  rw [Deed.kind?, hd, Option.bind_some, if_neg fun h => hne h.1 h.2]

theorem mem_names_cons {g : Guard} {gs : List Guard} (hne : g.name ≠ name) :
    name ∈ (g :: gs).map (·.name) ↔ name ∈ gs.map (·.name) := by
  rw [List.map_cons, List.mem_cons, or_iff_right (Ne.symm hne)]

/-- A turn of a thread, as far as it bears on a name, unless it gives up a name that the stream is
wrong about. -/
theorem Stands.turn (h : Stands strict (b t) name ks) (hn : (b t).names.Nodup) (ht : Turn b t d p)
    (hl : ∀ d' ∈ d, ¬ d'.Lost) (hb : d ≠ some (.balked t name))
    (hs : strict = true → ∀ name taken, d ≠ some (.attempt t name true taken))
    (hg : ∀ name kind, kind.givesUp = true → d = some (.record t kind name true) →
      name ∉ (b t).left) :
    Stands strict p name (ks ++ (d.bind (Deed.kind? t name)).toList) := by
  have unnamed {d : Deed} {p : Page} {k : Kind} {n : LockName} (hne : n ≠ name)
      (hd : d.told? = some (t, k, n)) (ha : p.asked = some name ↔ (b t).asked = some name)
      (hp : p.phase name = (b t).phase name) :
      Stands strict p name (ks ++ ((some d).bind (Deed.kind? t name)).toList) := by
    rw [Option.bind_some, kind?_ne hd fun _ => hne, Option.toList_none, List.append_nil]
    exact h.congr ha hp
  have named {d : Deed} {p : Page} {k : Kind} (hd : d.told? = some (t, k, name))
      (h' : Stands strict p name (ks ++ [k])) :
      Stands strict p name (ks ++ ((some d).bind (Deed.kind? t name)).toList) := by
    rw [Option.bind_some, kind?_self hd]
    exact h'
  have dropped {g : Guard} (hm : g ∈ (b t).guards) (hne : g.name ≠ name) (away : Option Guard)
      (hw : away.map (·.name) = some name ↔ (b t).away.map (·.name) = some name) :
      Page.phase { (b t).drop g with away } name = (b t).phase name := by
    refine Page.phase_congr ?_ ?_ hw
    · exact (Page.mem_held_drop hn hm).trans (and_iff_left (Ne.symm hne))
    · exact (Page.mem_left_drop hn hm).trans (and_iff_left (Ne.symm hne))
  cases ht with
  | quiet =>
    rw [Option.bind_none, Option.toList_none, List.append_nil]
    exact h
  | balked n ha hw =>
    have hname : n ≠ name := fun he => hb (he ▸ rfl)
    have hnone : (some (Deed.balked t n)).bind (Deed.kind? t name) = none := rfl
    rw [hnone, Option.toList_none, List.append_nil]
    exact h.congr (by simp [ha, hname]) rfl
  | attempt n taken hset =>
    obtain rfl : taken = true := by simpa [Deed.Lost] using hl
    by_cases hname : n = name
    · subst hname
      refine named rfl ((stands_asked rfl).mpr ?_)
      rw [stands_unasked (by simp [hset.asked])] at h
      refine h.attempt fun hst => Page.phase_idle (fun hm => ?_) hset.away
      exact hs hst n true (by rw [List.contains_iff_mem.mpr hm])
    · exact unnamed hname rfl (by simp [hset.asked, hname]) rfl
  | denied n taken ha hw =>
    obtain rfl : taken = true := by simpa [Deed.Lost] using hl
    by_cases hname : n = name
    · subst hname
      rw [stands_asked ha] at h
      exact named rfl ((stands_unasked (by simp)).mpr h.denied)
    · exact unnamed hname rfl (by simp [ha, hname]) rfl
  | acquired g taken ha hw hf =>
    obtain rfl : taken = true := by simpa [Deed.Lost] using hl
    by_cases hname : g.name = name
    · subst hname
      rw [stands_asked ha, Page.phase_idle (hf t) hw] at h
      refine named rfl ((stands_unasked (by simp)).mpr ?_)
      rw [Page.phase_held (List.mem_cons_self ..)]
      exact h.acquired
    · exact unnamed hname rfl (by simp [ha, hname])
        (Page.phase_congr (mem_names_cons hname) Iff.rfl Iff.rfl)
  | released g taken hset hm =>
    obtain rfl : taken = true := by simpa [Deed.Lost] using hl
    by_cases hname : g.name = name
    · subst hname
      have hheld := (Page.mem_names.mp (List.mem_map_of_mem hm)).resolve_right (hg _ _ rfl rfl)
      rw [stands_unasked (by simp [hset.asked]), Page.phase_held hheld] at h
      refine named rfl ((stands_unasked (by simp [Page.drop, hset.asked])).mpr ?_)
      rw [Page.phase_idle (p := (b t).drop g) ?_ hset.away]
      · exact Standing.of_story h.story.released
      · simp [Page.mem_names, Page.mem_held_drop hn hm, Page.mem_left_drop hn hm]
    · exact unnamed hname rfl Iff.rfl (dropped hm hname (b t).away Iff.rfl)
  | slept g taken hset hm =>
    obtain rfl : taken = true := by simpa [Deed.Lost] using hl
    by_cases hname : g.name = name
    · subst hname
      have hheld := (Page.mem_names.mp (List.mem_map_of_mem hm)).resolve_right (hg _ _ rfl rfl)
      rw [stands_unasked (by simp [hset.asked]), Page.phase_held hheld] at h
      refine named rfl ((stands_unasked (by simp [Page.drop, hset.asked])).mpr ?_)
      rw [Page.phase_waiting (fun hm' => ?_) (.inr rfl)]
      · exact Standing.of_story h.story.slept
      · exact ((Page.mem_held_drop hn hm).mp hm').2 rfl
    · exact unnamed hname rfl Iff.rfl (dropped hm hname (some g) (by simp [hset.away, hname]))
  | woke g taken ha hw hf =>
    obtain rfl : taken = true := by simpa [Deed.Lost] using hl
    by_cases hname : g.name = name
    · subst hname
      have hfree : g.name ∉ (b t).held := fun hm => hf t (Page.mem_names.mpr (.inl hm))
      rw [stands_unasked (by simp [ha]), Page.phase_waiting hfree (.inr (by rw [hw]; rfl))] at h
      refine named rfl ((stands_unasked (by simp [ha])).mpr ?_)
      rw [Page.phase_held (List.mem_cons_self ..)]
      exact Standing.of_story h.story.woke
    · exact unnamed hname rfl Iff.rfl
        (Page.phase_congr (mem_names_cons hname) Iff.rfl (by simp [hw, hname]))
  | broke g ha hw hf =>
    have hnone : (some (Deed.broke t g.name)).bind (Deed.kind? t name) = none := rfl
    rw [hnone, Option.toList_none, List.append_nil]
    refine h.congr Iff.rfl ?_
    by_cases hname : g.name = name
    · subst hname
      have hfree : g.name ∉ (b t).held := fun hm => hf t (Page.mem_names.mpr (.inl hm))
      have hbefore : (b t).phase g.name = .waiting :=
        Page.phase_waiting hfree (.inr (by rw [hw]; rfl))
      rw [hbefore]
      exact Page.phase_waiting hfree (.inl (List.mem_cons_self ..))
    · exact Page.phase_congr Iff.rfl (mem_names_cons hname) (by simp [hw, hname])

/-- The stream believes a thread asleep that gives up the name. -/
theorem Stands.broken {kind : Kind} (h : Stands strict (b t) name ks) (hn : (b t).names.Nodup)
    (ht : Turn b t (some (.record t kind name true)) p) (hk : kind.givesUp = true)
    (hm : name ∈ (b t).left) :
    Broken strict
      (ks ++ ((some (Deed.record t kind name true)).bind (Deed.kind? t name)).toList) := by
  have hheld : name ∉ (b t).held := fun hm' => Page.not_mem_left hn hm' hm
  rw [stands_unasked (by simp [(ht.of_givesUp hk).2.asked]),
    Page.phase_waiting hheld (.inl hm)] at h
  rw [Option.bind_some, kind?_self (k := kind) rfl]
  exact ⟨ks, kind, [], rfl, hk, h.story⟩

end Turn

/-- The kinds of the records of one thread and one name. -/
def told (ds : List Deed) (t : ThreadId) (name : LockName) : List Kind :=
  ds.filterMap (Deed.kind? t name)

theorem told_append (ds : List Deed) (d : Option Deed) (t : ThreadId) (name : LockName) :
    told (ds ++ d.toList) t name = told ds t name ++ (d.bind (Deed.kind? t name)).toList := by
  rw [told, List.filterMap_append]
  cases d with
  | none => rfl
  | some d => cases hk : d.kind? t name <;> simp [told, hk]

/-- The deed of a turn is that of its thread. -/
theorem kind?_of_turn {b : Book} {t t' : ThreadId} {d : Deed} {p : Page} (h : Turn b t (some d) p)
    (ht : t' ≠ t) (name : LockName) : d.kind? t' name = none := by
  cases hd : d.told? with
  | none => rw [Deed.kind?, hd, Option.bind_none]
  | some r =>
    obtain ⟨t'', k, name'⟩ := r
    refine kind?_ne hd fun he => absurd ?_ ht
    rw [← he]
    cases h with
    | balked | broke => contradiction
    | attempt _ taken | denied _ taken | acquired _ taken | released _ taken | slept _ taken
    | woke _ taken =>
      cases taken with
      | false => contradiction
      | true =>
        cases hd
        rfl

theorem told_turn_ne {ds : List Deed} {b : Book} {t t' : ThreadId} {d : Option Deed} {p : Page}
    (h : Turn b t d p) (ht : t' ≠ t) (name : LockName) :
    told (ds ++ d.toList) t' name = told ds t' name := by
  have hnone : d.bind (Deed.kind? t' name) = none := by
    cases d with
    | none => rfl
    | some d => exact kind?_of_turn h ht name
  rw [told_append, hnone, Option.toList_none, List.append_nil]

/-- A course without losses and failures on poisoned mutexes fits the pages of its book, unless it
is fouled. No thread may attempt what it holds if `strict`. -/
theorem stands_course (strict : Bool) {ds : List Deed} {b : Book} (h : Course ds b)
    (hl : ∀ d ∈ ds, ¬ d.Lost) (hb : ∀ t name, .balked t name ∉ ds)
    (hs : strict = true → ∀ t name taken, .attempt t name true taken ∉ ds) :
    Deed.Fouled ds ∧ (∃ t name, Broken strict (told ds t name)) ∨
    ¬ Deed.Fouled ds ∧ ∀ t name, Stands strict (b t) name (told ds t name) := by
  induction h with
  | start =>
    refine .inr ⟨?_, fun t name => Standing.of_story ?_⟩
    · exact Deed.not_fouled_nil
    · rw [Page.phase_idle (by simp [Page.names, Page.guards]) rfl]
      exact .start
  | @turn ds b d p t h ht ih =>
    have hls : ∀ d ∈ ds, ¬ d.Lost := fun d hd => hl d (List.mem_append_left _ hd)
    have hin {d'} (hd : d' ∈ d) : d' ∈ ds ++ d.toList :=
      List.mem_append_right _ (Option.mem_toList.mpr hd)
    have ih := ih hls (fun t name hm => hb t name (List.mem_append_left _ hm))
      fun hst t name taken hm => hs hst t name taken (List.mem_append_left _ hm)
    rcases ih with ⟨hf, t', name, hbr⟩ | ⟨hf, hstands⟩
    · refine .inl ⟨hf.append _, t', name, ?_⟩
      rw [told_append]
      exact hbr.append _
    · have hiff := h.fouled_append hls ht
      rw [or_iff_right hf] at hiff
      by_cases hfoul : Deed.Fouled (ds ++ d.toList)
      · obtain ⟨name, kind, hk, rfl, hm⟩ := hiff.mp hfoul
        refine .inl ⟨hfoul, t, name, ?_⟩
        rw [told_append]
        exact (hstands t name).broken (h.apart.within t) ht hk hm
      · refine .inr ⟨hfoul, fun t' name => ?_⟩
        by_cases he : t' = t
        · subst he
          rw [told_append, Book.turn_self]
          exact (hstands t' name).turn (h.apart.within t') ht (fun d' hd => hl d' (hin hd))
            (fun hd => hb t' name (hin hd))
            (fun hst name taken hd => hs hst t' name taken (hin hd))
            fun name kind hk hd hm => hfoul (hiff.mpr ⟨name, kind, hk, hd, hm⟩)
        · rw [told_turn_ne ht he, Book.turn_ne b he]
          exact hstands t' name

section Run

variable {title : ThreadId → String} {es : List Event} {ds : List Deed}

theorem kinds_eq_filterMap (es : List Event) (tid : String) (name : LockName) :
    kinds es tid name = (es.map Event.gist).filterMap fun r =>
      if r.2.1 = tid ∧ r.2.2 = name then some r.1 else none := by
  induction es with
  | nil => rfl
  | cons e es ih =>
    rw [List.map_cons, List.filterMap_cons, ← ih]
    by_cases he : (e.tid, e.lock) = (tid, name)
    · obtain ⟨rfl, rfl⟩ := Prod.mk.inj he
      rw [kinds_cons_self]
      simp [Event.gist]
    · rw [kinds_cons_ne he]
      have hne : ¬ (e.tid = tid ∧ e.lock = name) := fun h => he (Prod.ext h.1 h.2)
      simp [Event.gist, hne]

theorem kinds_of_gist (h : es.map Event.gist = ds.filterMap (Deed.gist? title)) (tid : String)
    (name : LockName) : kinds es tid name = ds.filterMap fun d =>
      d.told?.bind fun r => if title r.1 = tid ∧ r.2.2 = name then some r.2.1 else none := by
  rw [kinds_eq_filterMap, h, List.filterMap_filterMap]
  congr 1
  funext d
  rw [Deed.gist?, Option.bind_map]
  rfl

theorem kinds_title (h : es.map Event.gist = ds.filterMap (Deed.gist? title))
    (hti : Function.Injective title) (t : ThreadId) (name : LockName) :
    kinds es (title t) name = told ds t name := by
  rw [kinds_of_gist h, told]
  simp only [hti.eq_iff]
  rfl

theorem kinds_eq_nil (h : es.map Event.gist = ds.filterMap (Deed.gist? title)) {tid : String}
    (ht : ∀ t, title t ≠ tid) (name : LockName) : kinds es tid name = [] := by
  rw [kinds_of_gist h]
  simp [ht]

variable {V : Type} {e : EmitterId} {home : LockName → MutexId} {o : Outlet}
  {w₀ w : World V Desk} {room : Option Nat}

/-- At every moment of a run of traced calls on mutexes that cannot be poisoned, whether and
whenever the sink closes, what a thread does to a lock is the beginning of rounds, attempts that
fail and a last one without an answer aside, until a guard is given up that a panicked wait has left
behind, and no longer from then on. If no thread attempts what it holds the checker says the same.
-/
theorem lifecycle_grammar (h₀ : w₀.Fresh) (hi : w₀.Immune)
    (hc : w₀.recorder.Captures e o [] room)
    (h : World.Run (Call.Traced e home) Desk.Ticks w₀ ds w) :
    ∃ es, Check.events? (w.recorder.bytes o) = some es ∧
      ((∀ tid name, ∃ rest, settle (kinds es tid name) ++ rest ∈ rounds) ↔ ¬ Deed.Fouled ds) ∧
      ((∀ t name taken, .attempt t name true taken ∉ ds) →
        ((∃ ps, run es = .ok ps) ↔ ¬ Deed.Fouled ds)) := by
  obtain ⟨es, title, xs, ys, b, hes, hti, hgist, rfl, hx, hxs, hys⟩ := h.exists_told h₀ hc
  have hb : ∀ t name, .balked t name ∉ xs := fun t name hm =>
    h.not_balked hi t name (List.mem_append_left ys hm)
  rw [Deed.fouled_append_of_untold hys]
  refine ⟨es, hes, ?_, fun hagain => ?_⟩
  · rcases stands_course false hx hxs hb nofun with ⟨hf, t, name, hbr⟩ | ⟨hf, hst⟩
    · refine iff_of_false (fun hall => ?_) (not_not.mpr hf)
      have hrest := hall (title t) name
      rw [kinds_title hgist hti] at hrest
      exact hbr.not_exists_append_mem_rounds hrest
    · refine iff_of_true (fun tid name => ?_) hf
      by_cases ht : ∃ t, title t = tid
      · obtain ⟨t, rfl⟩ := ht
        rw [kinds_title hgist hti]
        exact (hst t name).exists_append_mem_rounds
      · rw [kinds_eq_nil hgist (not_exists.mp ht)]
        exact ⟨[], Language.nil_mem_kstar _⟩
  · have hagain' : true = true → ∀ t name taken, .attempt t name true taken ∉ xs :=
      fun _ t name taken hm => hagain t name taken (List.mem_append_left ys hm)
    rw [exists_run_iff]
    rcases stands_course true hx hxs hb hagain' with ⟨hf, t, name, hbr⟩ | ⟨hf, hst⟩
    · refine iff_of_false (fun hall => ?_) (not_not.mpr hf)
      have hsome := hall (title t) name
      rw [kinds_title hgist hti, hbr.next_eq_none] at hsome
      contradiction
    · refine iff_of_true (fun tid name => ?_) hf
      by_cases ht : ∃ t, title t = tid
      · obtain ⟨t, rfl⟩ := ht
        rw [kinds_title hgist hti]
        exact (hst t name).isSome_next
      · rw [kinds_eq_nil hgist (not_exists.mp ht)]
        rfl

theorem lifecycle_grammar_sharedLock : ∃ w es ps, World.blank.Fresh ∧ World.blank.Immune ∧
    World.blank.recorder.Captures 0 .stdout [] none ∧
    World.Run (Call.Traced 0 World.twoNames) Desk.Ticks World.blank World.sharedLockDeeds w ∧
    Check.events? (w.recorder.bytes .stdout) = some es ∧ run es = .ok ps ∧
    ∀ tid name, ∃ rest, settle (kinds es tid name) ++ rest ∈ rounds := by
  have himmune : World.blank.Immune := fun _ => ⟨rfl, rfl⟩
  obtain ⟨w, h⟩ := World.exists_sharedLock
  obtain ⟨es, hes, hgrammar, hrun⟩ :=
    lifecycle_grammar World.fresh_blank himmune World.captures_blank h
  have hfoul : ¬ Deed.Fouled World.sharedLockDeeds := by
    rintro ⟨t, name, kind, _, hsub⟩
    have := hsub.subset (List.mem_cons_self ..)
    simp [World.sharedLockDeeds] at this
  have hagain : ∀ t name taken, .attempt t name true taken ∉ World.sharedLockDeeds := by
    simp [World.sharedLockDeeds]
  obtain ⟨ps, hps⟩ := (hrun hagain).mpr hfoul
  exact ⟨w, es, ps, World.fresh_blank, himmune, World.captures_blank, h, hes, hps,
    hgrammar.mpr hfoul⟩

/-- A guard that a panicked wait has left behind is released in the phase of a sleeper. -/
theorem not_grammar_mixedWait : ∃ w es, World.blank.Fresh ∧ World.blank.Immune ∧
    World.blank.recorder.Captures 0 .stdout [] none ∧
    World.Run (Call.Traced 0 World.twoNames) Desk.Ticks World.blank World.mixedWaitDeeds w ∧
    (∀ t name taken, .attempt t name true taken ∉ World.mixedWaitDeeds) ∧
    Check.events? (w.recorder.bytes .stdout) = some es ∧ (∀ ps, run es ≠ .ok ps) ∧
    ¬ ∀ tid name, ∃ rest, settle (kinds es tid name) ++ rest ∈ rounds := by
  obtain ⟨w, h⟩ := World.exists_mixedWait
  obtain ⟨es, room, hs⟩ := h.exists_streams World.fresh_blank World.captures_blank
  have hkinds : kinds es (w.title 1) World.nameK = [.attempt, .acquired, .wait, .released] := by
    rw [kinds_title hs.gist hs.tagged.title_injective]
    decide
  refine ⟨w, es, World.fresh_blank, fun _ => ⟨rfl, rfl⟩, World.captures_blank, h, ?_, ?_, ?_, ?_⟩
  · simp [World.mixedWaitDeeds]
  · rw [hs.captures.bytes]
    exact Check.events?_bytes es
  · intro ps hrun
    have hsome := (exists_run_iff es).mp ⟨ps, hrun⟩ (w.title 1) World.nameK
    rw [hkinds] at hsome
    contradiction
  · intro hall
    have hrest := hall (w.title 1) World.nameK
    rw [hkinds, exists_append_mem_rounds_iff] at hrest
    contradiction

end Run

end Lifecycle

end LockTrace
