import LockTrace.Proofs.Workload.Conduct
import LockTrace.Proofs.Workload.Standstill
import LockTrace.Proofs.Workload.Telling

namespace LockTrace.Inversion

open Function (update update_self update_of_ne)

/-- The hold of the first mutex. -/
def holdA : Guard := ⟨0, ⟨"A", by decide⟩, 0⟩

/-- The hold of the second mutex. -/
def holdB : Guard := ⟨1, ⟨"B", by decide⟩, 0⟩

/-- The hold that a worker gets. -/
def outer (t : ThreadId) : Guard := if t = 1 then holdA else holdB

/-- The hold that a worker never gets. -/
def inner (t : ThreadId) : Guard := if t = 1 then holdB else holdA

theorem first_eq (t : ThreadId) : (partyOf t).first = ((outer t).mutex, (outer t).name.text) := by
  unfold partyOf outer
  split <;> rfl

theorem second_eq (t : ThreadId) : (partyOf t).second = ((inner t).mutex, (inner t).name.text) := by
  unfold partyOf inner
  split <;> rfl

theorem mutex_inner_ne (t : ThreadId) : (inner t).mutex ≠ (outer t).mutex := by
  unfold inner outer
  split <;> decide

/-- The guard that a worker keeps in a slot, once it has it. -/
def hold (t : ThreadId) (slot : Slot) : Guard := if slot = 0 then outer t else inner t

theorem emitter_hold (t : ThreadId) (slot : Slot) : (hold t slot).emitter = 0 := by
  unfold hold outer inner
  split <;> split <;> rfl

theorem mk_hold (t : ThreadId) (slot : Slot) :
    (⟨(hold t slot).mutex, (hold t slot).name, 0⟩ : Guard) = hold t slot := by
  rw [← emitter_hold t slot]

/-- A worker that keeps its first guards, as many as this. -/
def below (t : ThreadId) (n : Nat) (slot : Slot) : Option Guard :=
  if slot < n then some (hold t slot) else none

theorem below_succ (t : ThreadId) (n : Nat) :
    below t (n + 1) = update (below t n) n (some (hold t n)) := by
  funext slot
  by_cases hs : slot = n
  · rw [hs, update_self, below, if_pos (Nat.lt_succ_self n)]
  · rw [update_of_ne hs, below, below]
    exact if_congr (by simp only [Slot] at hs ⊢; omega) rfl rfl

theorem update_below (t : ThreadId) (n : Nat) : update (below t (n + 1)) n none = below t n := by
  rw [below_succ, Function.update_idem, Function.update_eq_self_iff, below,
    if_neg (Nat.lt_irrefl n)]

/-- How many guards a worker keeps at a place. -/
def guardsAt : Place → Nat
  | .locking => 0
  | .telling | .arriving | .meeting | .delaying | .announcing | .crossing => 1
  | .marvelling => 2
  | .leaving n _ => n

/-- What a worker records on its way to the lock that it gets. -/
def got (t : ThreadId) : List (Kind × LockName) :=
  [(.attempt, (outer t).name), (.acquired, (outer t).name)]

/-- All that a worker records. -/
def whole (t : ThreadId) : List (Kind × LockName) := got t ++ [(.attempt, (inner t).name)]

def said (t : ThreadId) : Place → List (Kind × LockName) → Prop
  | .locking, rs => rs = []
  | .telling, rs | .arriving, rs | .meeting, rs | .delaying, rs | .announcing, rs
  | .crossing, rs => rs = got t
  | .marvelling, _ | .leaving _ _, _ => True

def routine : Routine Unit Place where
  emitter := 0
  mutexOf _ := 0
  keeps t s := below t (guardsAt s)
  said := said
  script := script
  allows t s := by
    cases s with
    | locking =>
      refine ⟨rfl, rfl, (outer t).name, ?_, ?_, ?_⟩
      · rw [first_eq]
        exact LockName.ofString?_text _
      · rw [first_eq]
        refine (below_succ t 0).trans ?_
        rw [← mk_hold]
        rfl
      · rintro rs rfl
        rfl
    | telling | arriving | meeting | delaying | announcing => exact ⟨rfl, fun _ => id⟩
    | crossing =>
      refine ⟨rfl, rfl, (inner t).name, ?_, ?_, fun _ _ => trivial⟩
      · rw [second_eq]
        exact LockName.ofString?_text _
      · rw [second_eq]
        refine (below_succ t 1).trans ?_
        rw [← mk_hold]
        rfl
    | marvelling => exact ⟨rfl, fun _ _ => trivial⟩
    | leaving n result =>
      cases n with
      | zero => exact fun slot => rfl
      | succ n =>
        refine ⟨hold t n, ?_, (update_below t n).symm, fun _ _ => trivial⟩
        exact if_pos (Nat.lt_succ_self n)
  through t s slot g hg := by
    rw [below] at hg
    split at hg
    · cases hg
      exact emitter_hold t slot
    · contradiction

/-- The mutex of each name. -/
def home (name : LockName) : MutexId := if name = holdA.name then 0 else 1

theorem traced {t : ThreadId} {s : Place} {c : Call Unit} {next : Answer Unit → Place}
    (hc : script t s = .call c next) : c.Traced 0 home := by
  have hhome (slot : Slot) : home (hold t slot).name = (hold t slot).mutex := by
    unfold hold outer inner
    split <;> split <;> decide
  cases s with
  | locking =>
    cases hc
    refine ⟨rfl, fun name hname => ?_⟩
    rw [first_eq] at hname ⊢
    rw [LockName.ofString?_text] at hname
    cases hname
    exact hhome 0
  | crossing =>
    cases hc
    refine ⟨rfl, fun name hname => ?_⟩
    rw [second_eq] at hname ⊢
    rw [LockName.ofString?_text] at hname
    cases hname
    exact hhome 1
  | leaving n =>
    cases n with
    | zero => cases hc
    | succ n =>
      cases hc
      trivial
  | telling | arriving | meeting | delaying | announcing | marvelling => cases hc

/-- A worker that has not got its second lock. -/
def Short : Place → Progress Unit → Prop
  | .crossing, .ahead => True
  | .crossing, _ | .marvelling, _ | .leaving _ _, _ => False
  | _, _ => True

/-- The worker has told the others that it has its first lock. -/
def arrived : Place → Bool
  | .locking | .telling | .arriving => false
  | _ => true

/-- The worker has heard that the others have their first locks. -/
def met : Place → Bool
  | .locking | .telling | .arriving | .meeting => false
  | _ => true

section Short

variable {b b' : Plot Unit Place} {t : ThreadId} {s : Place} {pr : Progress Unit}

/-- Such a worker holds its first lock at most. -/
theorem Short.holds (h : Short s pr) {slot : Slot} {g : Guard}
    (hg : routine.holds t s pr slot = some g) : g = outer t := by
  have hbelow {n : Nat} (hn : n ≤ 1) (hg : below t n slot = some g) : g = outer t := by
    rw [below] at hg
    split at hg
    · rename_i hs
      obtain rfl : slot = 0 := by simp only [Slot] at hs ⊢; omega
      exact (Option.some_inj.mp hg).symm
    · contradiction
  cases s with
  | locking =>
    cases pr with
    | done a =>
      cases a with
      | failed => exact hbelow (Nat.zero_le 1) hg
      | _ => exact hbelow le_rfl hg
    | ahead | dozing | parked | roused => exact hbelow (Nat.zero_le 1) hg
  | crossing =>
    cases pr with
    | ahead => exact hbelow le_rfl hg
    | _ => exact h.elim
  | marvelling | leaving => exact h.elim
  | telling | arriving | meeting | delaying | announcing =>
    cases pr
    all_goals exact hbelow le_rfl hg

/-- Once it has arrived it does hold that lock. -/
theorem Short.holds_zero (h : Short s pr) (ha : arrived s = true) :
    routine.holds t s pr 0 = some (outer t) := by
  cases s with
  | crossing =>
    cases pr with
    | ahead => rfl
    | _ => exact h.elim
  | locking | telling | arriving => contradiction
  | marvelling | leaving => exact h.elim
  | meeting | delaying | announcing => cases pr <;> rfl

end Short

/-- While nobody has ended or got its second lock: the arrivals are counted, and a worker passes the
meeting point only when both have arrived. -/
structure Standoff (b : Plot Unit Place) : Prop where
  arrivals : b.arrivals = (arrived (b.place 1)).toNat + (arrived (b.place 2)).toNat
  together : ∀ t ∈ [1, 2], met (b.place t) = true → ∀ t' ∈ [1, 2], arrived (b.place t') = true
  short : ∀ t, Short (b.place t) (b.progress t)
  ended : b.ended = []

section Standoff

variable {b b' : Plot Unit Place} {t : ThreadId}

/-- When both have arrived the second lock of each is the first one of the other. -/
theorem Standoff.inner_held (h : Standoff b) (hc : b.Custody routine) (ht : t ∈ [1, 2])
    (hm : met (b.place t) = true) : b.holder (inner t).mutex ≠ none := by
  have hcrossed : ∀ t ∈ [1, 2], ∃ t' ∈ [1, 2], (outer t').mutex = (inner t).mutex := by decide
  obtain ⟨t', ht', he⟩ := hcrossed t ht
  have hheld := (h.short t').holds_zero (t := t') (h.together t ht hm t' ht')
  rw [(hc.holder t' _).mpr ⟨0, outer t', hheld, he⟩]
  exact Option.some_ne_none t'

theorem Standoff.both_arrived (h : Standoff b) (ha : 2 ≤ b.arrivals) :
    ∀ t ∈ [1, 2], arrived (b.place t) = true := by
  intro t ht
  have hcount := h.arrivals
  have hone := Bool.toNat_le (arrived (b.place 1))
  have htwo := Bool.toNat_le (arrived (b.place 2))
  rcases List.mem_pair.mp ht with rfl | rfl
  · exact Bool.toNat_eq_one.mp (by omega)
  · exact Bool.toNat_eq_one.mp (by omega)

/-- A worker goes on without ending. -/
theorem Standoff.goes (h : Standoff b) (ht : t ∈ [1, 2]) {s : Place} {pr : Progress Unit}
    (hpl : b'.place = update b.place t s) (hpr : b'.progress = update b.progress t pr)
    (hended : b'.ended = b.ended) (hs : Short s pr)
    (harrivals : b'.arrivals + (arrived (b.place t)).toNat = b.arrivals + (arrived s).toNat)
    (hmono : arrived (b.place t) = true → arrived s = true)
    (hmet : met s = true → ∀ t' ∈ [1, 2], arrived (b.place t') = true) : Standoff b' where
  arrivals := by
    have hcount := h.arrivals
    rw [hpl]
    rcases List.mem_pair.mp ht with rfl | rfl
    · rw [update_self, update_of_ne (by decide)]
      omega
    · rw [update_self, update_of_ne (by decide)]
      omega
  together t₁ ht₁ hm t₂ ht₂ := by
    have hall : ∀ t' ∈ [1, 2], arrived (b.place t') = true := by
      by_cases he : t₁ = t
      · rw [hpl, he, update_self] at hm
        exact hmet hm
      · rw [hpl, update_of_ne he] at hm
        exact h.together t₁ ht₁ hm
    rw [hpl]
    by_cases he : t₂ = t
    · rw [he, update_self]
      exact hmono (hall t ht)
    · rw [update_of_ne he]
      exact hall t₂ ht₂
  short t' := by
    rw [hpl, hpr]
    by_cases he : t' = t
    · rw [he, update_self, update_self]
      exact hs
    · rw [update_of_ne he, update_of_ne he]
      exact h.short t'
  ended := hended.trans h.ended

/-- Whatever a worker does, nobody gets its second lock or ends. -/
theorem Standoff.turn (h : Standoff b) (hc : b.Custody routine) (ht : t ∈ [1, 2])
    {st : Stage Unit} (hturn : b.Turn routine t (script t (b.place t)) st b') : Standoff b' := by
  have stays : b.place = update b.place t (b.place t) := (Function.update_eq_self ..).symm
  have rests : b.progress = update b.progress t (b.progress t) := (Function.update_eq_self ..).symm
  have hshort := h.short t
  cases hs : b.place t with
  | locking =>
    rw [hs] at hturn
    cases hturn with
    | quiet => exact h
    | lock =>
      refine h.goes ht stays rfl rfl ?_ rfl id fun hm => h.together t ht hm
      rw [hs]
      trivial
    | @collect _ a _ hp ha =>
      cases a with
      | ok => exact h.goes ht rfl rfl rfl trivial (by rw [hs]; rfl) (by rw [hs]; exact id) nofun
      | _ => exact ha.elim
  | telling =>
    rw [hs] at hturn
    cases hturn with
    | quiet => exact h
    | note => exact h.goes ht rfl rests rfl trivial (by rw [hs]; rfl) (by rw [hs]; exact id) nofun
  | arriving =>
    rw [hs] at hturn
    cases hturn with
    | quiet => exact h
    | arrive => exact h.goes ht rfl rests rfl trivial (by rw [hs]; rfl) (fun _ => rfl) nofun
  | meeting =>
    rw [hs] at hturn
    cases hturn with
    | quiet => exact h
    | meet hp ha =>
      exact h.goes ht rfl rests rfl trivial (by rw [hs]; rfl) (fun _ => rfl) fun _ =>
        h.both_arrived ha
  | delaying =>
    rw [hs] at hturn
    cases hturn with
    | quiet => exact h
    | pause =>
      exact h.goes ht rfl rests rfl trivial (by rw [hs]; rfl) (fun _ => rfl) fun _ =>
        h.together t ht (by rw [hs]; rfl)
  | announcing =>
    rw [hs] at hturn
    cases hturn with
    | quiet => exact h
    | note hp =>
      exact h.goes ht rfl rests rfl (by rw [hp]; trivial) (by rw [hs]; rfl) (fun _ => rfl) fun _ =>
        h.together t ht (by rw [hs]; rfl)
  | crossing =>
    rw [hs] at hturn hshort
    cases hturn with
    | quiet => exact h
    | lock hp hf =>
      rw [second_eq] at hf
      exact absurd hf (h.inner_held hc ht (by rw [hs]; rfl))
    | collect hp =>
      rw [hp] at hshort
      exact hshort.elim
  | marvelling | leaving =>
    rw [hs] at hshort
    exact hshort.elim

end Standoff

section Halted

variable {R : Type} {P : R → Prop} {own : ThreadId → List (Kind × LockName)}
  {p : Play Unit R Place} {t : ThreadId}

theorem label_first {name : LockName} (hl : LockName.ofString? (partyOf t).first.2 = some name) :
    name = (outer t).name := by
  rw [first_eq, LockName.ofString?_text] at hl
  exact (Option.some_inj.mp hl).symm

theorem label_second {name : LockName} (hl : LockName.ofString? (partyOf t).second.2 = some name) :
    name = (inner t).name := by
  rw [second_eq, LockName.ofString?_text] at hl
  exact (Option.some_inj.mp hl).symm

/-- A worker that has not got its second lock has recorded nothing else than it should. -/
theorem own_prefix {s : Place} {st : Stage Unit} {guards : Slot → List Guard}
    {own : List (Kind × LockName)} (h : routine.Stands t s st guards own)
    (hs : Short s st.progress) : own <+: whole t := by
  obtain ⟨gs, rs₀, rs₁, hsaid, hwithin, rfl, _⟩ := h
  cases s with
  | locking =>
    obtain rfl := hsaid
    cases hwithin with
    | idle | attempting => exact List.nil_prefix
    | acquiring hl | recording hl =>
      rw [label_first hl]
      exact ⟨_, rfl⟩
    | locked hl =>
      rw [label_first hl]
      exact ⟨_, rfl⟩
  | telling | arriving | meeting | delaying | announcing =>
    obtain rfl := hsaid
    cases hwithin
    exact ⟨[(.attempt, (inner t).name)], rfl⟩
  | crossing =>
    obtain rfl := hsaid
    cases hwithin with
    | idle | attempting => exact ⟨[(.attempt, (inner t).name)], rfl⟩
    | acquiring hl =>
      rw [label_second hl]
      exact List.prefix_rfl
    | recording | locked => exact hs.elim
  | marvelling | leaving => exact hs.elim

/-- A worker that cannot move waits for the others at the meeting point, or for its second lock. -/
theorem Standoff.alone_or_crossing (h : Standoff p.plot) (hf : p.Follows routine P own)
    (hworkers : ∀ t m, p.world.holder m = some t → t ∈ [1, 2]) (ht : t ∈ [1, 2])
    (hh : p.Halted routine own t (script t (p.places.get t))) :
    p.places.get t = .meeting ∧ p.arrivals < 2 ∨
      p.places.get t = .crossing ∧ own t = whole t := by
  have hshort : Short (p.places.get t) (p.plot.progress t) := h.short t
  cases hs : p.places.get t with
  | locking =>
    rw [hs] at hh
    cases hh with
    | asking hp hx =>
      -- only the worker itself could have its first lock, but it asks for it
      rw [first_eq] at hx
      obtain ⟨t', hholder⟩ := Option.ne_none_iff_exists'.mp hx
      have ht' := hworkers t' _ hholder
      obtain ⟨slot, g, hg, hm⟩ := (hf.custody.holder t' _).mp hholder
      obtain rfl := (h.short t').holds hg
      have happart : ∀ t ∈ [1, 2], ∀ t' ∈ [1, 2], (outer t').mutex = (outer t).mutex → t' = t := by
        decide
      obtain rfl := happart t ht t' ht' hm
      rw [Plot.held, hp, show p.plot.place t' = .locking from hs] at hg
      contradiction
  | meeting =>
    rw [hs] at hh
    cases hh with
    | alone _ ha => exact .inl ⟨rfl, ha⟩
  | crossing =>
    rw [hs] at hh
    cases hh with
    | asking _ _ hl hsaid ho =>
      rw [hs] at hsaid
      obtain rfl := hsaid
      rw [label_second hl] at ho
      exact .inr ⟨rfl, ho⟩
  | telling | arriving | delaying | announcing =>
    rw [hs] at hh
    cases hh
  | marvelling | leaving =>
    rw [hs] at hshort
    exact hshort.elim

/-- When neither worker can move, each has recorded all that it records. -/
theorem Standoff.eq_whole (h : Standoff p.plot) (hf : p.Follows routine P own)
    (hworkers : ∀ t m, p.world.holder m = some t → t ∈ [1, 2])
    (hh : ∀ t ∈ [1, 2], p.Halted routine own t (script t (p.places.get t))) :
    ∀ t ∈ [1, 2], own t = whole t := by
  have hplaces (t : ThreadId) (ht : t ∈ [1, 2]) := h.alone_or_crossing hf hworkers ht (hh t ht)
  have harrived (t : ThreadId) (ht : t ∈ [1, 2]) : arrived (p.plot.place t) = true := by
    rcases hplaces t ht with ⟨hs, _⟩ | ⟨hs, _⟩
    all_goals
      rw [show p.plot.place t = _ from hs]
      rfl
  -- so nobody is alone at the meeting point
  have hboth : p.arrivals = 2 := by
    refine h.arrivals.trans ?_
    rw [harrived 1 (by simp), harrived 2 (by simp)]
    rfl
  intro t ht
  rcases hplaces t ht with ⟨_, ha⟩ | ⟨_, hown⟩
  · rw [hboth] at ha
    exact absurd ha (Nat.lt_irrefl 2)
  · exact hown

end Halted

/-- Whatever part a worker has recorded of all that it records, the checker accepts it. -/
theorem isSome_next {t : ThreadId} {own : List (Kind × LockName)} (h : own <+: whole t)
    (name : LockName) :
    (((own.filter (·.2 = name)).map (·.1)).foldlM Phase.next? .idle).isSome := by
  have hwhole : (((whole t).filter (·.2 = name)).map (·.1)).foldlM Phase.next? .idle ≠ none := by
    have hne : (outer t).name ≠ (inner t).name := by
      unfold outer inner
      split <;> decide
    by_cases ho : (outer t).name = name
    · simp [whole, got, ← ho, Ne.symm hne, Phase.next?]
    · by_cases hi : (inner t).name = name
      · simp [whole, got, ← hi, hne, Phase.next?]
      · simp [whole, got, ho, hi]
  obtain ⟨rest, hrest⟩ := (h.filter (·.2 = name)).map (·.1)
  rw [← hrest, List.foldlM_append] at hwhole
  rw [Option.isSome_iff_ne_none]
  intro hnone
  rw [hnone] at hwhole
  exact hwhole rfl

section Run

variable {o : Outlet} {d : Desk} {ds : List Deed} {p : Play Unit Desk Place}

/-- Both workers in front of their first locks. -/
def facing (d : Desk) : Play Unit Desk Place :=
  Play.opening (fun _ => .locking) .locking [1, 2] () d

theorem place_facing (d : Desk) (t : ThreadId) : (facing d).places.get t = .locking := by
  rw [facing, Play.places_opening, ite_self]

theorem opens (hc : d.Captures 0 o [] none) :
    Play.Opens routine (fun d => ∃ es, d.Captures 0 o es none) (facing d) := by
  have hstart (t : ThreadId) : (∀ slot, below t 0 slot = none) ∧ said t .locking [] :=
    ⟨fun _ => rfl, rfl⟩
  exact Play.opens_opening ⟨[], hc⟩ hstart hstart

theorem standoff_facing (d : Desk) : Standoff (facing d).plot := by
  have hplace (t : ThreadId) : (facing d).plot.place t = .locking := place_facing d t
  refine ⟨?_, fun t _ hm => ?_, fun t => ?_, rfl⟩
  · rw [hplace, hplace]
    rfl
  · rw [hplace] at hm
    contradiction
  · rw [hplace]
    trivial

theorem standoff_of_chronicle (hc : d.Captures 0 o [] none)
    (h : Play.Chronicle script [1, 2] Desk.Ticks Play.deed? (facing d) ds p) : Standoff p.plot :=
  Play.Chronicle.plot_keeps (opens hc) (Desk.keeps_captures 0 o)
    (fun a b => Desk.captures_ticks (e := 0) (o := o) a b) (standoff_facing d)
    (fun _ _ _ _ ht hc hturn hi => hi.turn hc ht hturn) h

theorem Standoff.hasEnded (h : Standoff p.plot) (t : ThreadId) : p.hasEnded t = false := by
  rw [Play.hasEnded, show p.ended = [] from h.ended]
  rfl

/-- The crew hears of neither worker. -/
theorem Standoff.wait (h : Standoff p.plot) {rs : List Receipt}
    (hrs : p.Heard (fun t => (partyOf t).name) [1, 2] rs) :
    Crew.wait [alpha.name, beta.name] rs = (.ok (.stalled [alpha.name, beta.name]), []) := by
  cases hrs with
  | timedOut n =>
    rw [show p.ended = [] from h.ended, List.take_nil]
    rfl
  | closed hall =>
    have hone := hall 1 (by simp)
    rw [h.hasEnded] at hone
    contradiction

/-- However long the crew waits for the workload, and whatever the pauses are divided by, it finds
both workers stalled. -/
theorem run_stalls (settings : Settings) (pace : Nat) (hc : d.Captures 0 o [] none) :
    (Workload.run .mutexLockOrderInversion settings pace d).outcome =
      .ok (.stalled [alpha.name, beta.name]) := by
  obtain ⟨ds, p, rs, h, hrs, he⟩ := Workload.exists_conduct _ _ _ _ settings pace d
    (opening settings.deadline) Play.deed?
  rw [Workload.run, he]
  exact congrArg Prod.fst ((standoff_of_chronicle hc h).wait hrs)

/-- Whatever the order of moves: neither worker gets its second lock or ends, and the checkers
accept all that is recorded. When nobody can go on, six records are there, the last of each worker
the one that asks for its second lock, and the crew finds both workers stalled. -/
theorem deadlocks (hc : d.Captures 0 o [] none)
    (h : Play.Chronicle script [1, 2] Desk.Ticks Play.deed? (facing d) ds p) :
    (∀ t ∈ [1, 2], p.world.holder (partyOf t).second.1 ≠ some t ∧ p.hasEnded t = false) ∧
    (∃ es, Check.events? (p.world.recorder.bytes o) = some es ∧
      (∃ ps, Lifecycle.run es = .ok ps) ∧ (∃ hs, Exclusion.run es = .ok hs) ∧
      (∀ e ∈ es, e.kind ≠ .released) ∧
      ((∀ t ∈ [1, 2], ∀ pick, p.act script t pick = none) →
        es.length = 6 ∧ p.world.title 1 ≠ p.world.title 2 ∧
        recordsOf (p.world.title 1) es =
          [(.attempt, holdA.name), (.acquired, holdA.name), (.attempt, holdB.name)] ∧
        recordsOf (p.world.title 2) es =
          [(.attempt, holdB.name), (.acquired, holdB.name), (.attempt, holdA.name)])) ∧
    ∀ rs, p.Heard (fun t => (partyOf t).name) [1, 2] rs →
      Crew.wait [alpha.name, beta.name] rs = (.ok (.stalled [alpha.name, beta.name]), []) := by
  have h₀ := opens hc
  have hr := Desk.keeps_captures 0 o
  have hd := fun a b => Desk.captures_ticks (e := 0) (o := o) a b
  have hf := Play.Chronicle.follows h₀ hr hd h
  have hstandoff := standoff_of_chronicle hc h
  have hpart (t : ThreadId) : own Deed.told? t ds <+: whole t :=
    own_prefix (hf.stands t) (hstandoff.short t)
  obtain ⟨es, htells⟩ := Play.Chronicle.exists_tells h₀ hr hd hc (fun _ _ _ _ => traced) h
  refine ⟨fun t _ => ⟨fun hholder => ?_, hstandoff.hasEnded t⟩, ⟨es, htells.events,
    htells.lifecycle fun t => isSome_next (hpart t), htells.exclusion, ?_, fun hstuck => ?_⟩,
    fun rs => hstandoff.wait⟩
  · rw [second_eq] at hholder
    obtain ⟨slot, g, hg, hm⟩ := (hf.custody.holder t _).mp hholder
    rw [(hstandoff.short t).holds hg] at hm
    exact mutex_inner_ne t hm.symm
  · have hnone (t : ThreadId) : (own Deed.told? t ds).countP (fun r => r.1 = .released) = 0 := by
      refine Nat.le_zero.mp (((hpart t).sublist.countP_le).trans (Nat.le_zero.mpr ?_))
      simp [whole, got]
    have hcount := htells.countP fun r => r.1 = .released
    rw [Finset.sum_eq_zero fun t _ => hnone t, List.countP_eq_zero] at hcount
    exact fun e he hk => hcount e he (decide_eq_true hk)
  · have hwhole := hstandoff.eq_whole hf (fun t m => Play.Chronicle.mem_of_holder h₀ hr hd h)
      fun t ht => hf.halted (hstuck t ht)
    have hlength (t : ThreadId) (ht : t ∈ [1, 2].toFinset) :
        (own Deed.told? t ds).countP (fun _ => true) = 3 := by
      rw [hwhole t (List.mem_toFinset.mp ht)]
      rfl
    refine ⟨?_, htells.injective.ne (by decide), ?_, ?_⟩
    · have hcount := htells.countP fun _ => true
      rw [Finset.sum_const_nat hlength] at hcount
      exact (congrFun List.countP_true es).symm.trans hcount
    · rw [htells.records, hwhole 1 (by simp)]
      rfl
    · rw [htells.records, hwhole 2 (by simp)]
      rfl

end Run

/-- Both take their first locks, meet, and ask for their second locks. -/
def crossed : List ThreadId :=
  List.replicate 7 1 ++ List.replicate 12 2 ++ List.replicate 5 1

theorem rehearse_crossed : (Play.rehearse? script Play.deed? [] (facing Desk.console) crossed).map
    (fun r => (r.2.act script 1 List.head?).isNone && (r.2.act script 2 List.head?).isNone) =
      some true := by
  decide

theorem deadlocks_crossed : Desk.console.Captures 0 .stdout [] none ∧ ∃ ds p,
    Play.Chronicle script [1, 2] Desk.Ticks Play.deed? (facing Desk.console) ds p ∧
    (∀ t ∈ [1, 2], ∀ pick, p.act script t pick = none) ∧
    ∃ es, Check.events? (p.world.recorder.bytes .stdout) = some es ∧ es.length = 6 ∧
      recordsOf (p.world.title 1) es =
        [(.attempt, holdA.name), (.acquired, holdA.name), (.attempt, holdB.name)] := by
  obtain ⟨⟨ds, p⟩, hr, hboth⟩ := Option.map_eq_some_iff.mp rehearse_crossed
  obtain ⟨hone, htwo⟩ := Bool.and_eq_true_iff.mp hboth
  have h : Play.Chronicle script [1, 2] Desk.Ticks Play.deed? (facing Desk.console) ds p :=
    Play.Chronicle.start.rehearse (by simp [crossed]) hr
  have hstuck : ∀ t ∈ [1, 2], ∀ pick, p.act script t pick = none := by
    intro t ht
    rcases List.mem_pair.mp ht with rfl | rfl
    · exact Play.act_eq_none (Option.isNone_iff_eq_none.mp hone)
    · exact Play.act_eq_none (Option.isNone_iff_eq_none.mp htwo)
  obtain ⟨_, ⟨es, hes, _, _, _, hend⟩, _⟩ := deadlocks Desk.captures_console h
  obtain ⟨hlength, _, hrecords, _⟩ := hend hstuck
  exact ⟨Desk.captures_console, ds, p, h, hstuck, es, hes, hlength, hrecords⟩

end LockTrace.Inversion
