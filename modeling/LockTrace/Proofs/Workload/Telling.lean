import LockTrace.Proofs.Check.Exclusion
import LockTrace.Proofs.Check.Grammar
import LockTrace.Proofs.Check.Truth
import LockTrace.Proofs.Workload.Following
import Mathlib.Algebra.BigOperators.Group.Finset.Piecewise

namespace LockTrace

open Book (Course)

/-- A desk that shows every record of an emitter at an outlet never loses one. -/
theorem Desk.keeps_captures (e : EmitterId) (o : Outlet) :
    Recorder.Keeps e fun d : Desk => ∃ es, d.Captures e o es none := by
  rintro d k tid lock ⟨es, h⟩
  obtain ⟨hok, hc⟩ := h.record_taken nofun k tid lock
  exact ⟨(d.record e k tid lock).2, Prod.ext hok rfl, _, hc⟩

/-- All records go to the standard output. -/
def Desk.console : Desk := { sinks := ⟨.stdout, []⟩ }

theorem Desk.captures_console : Desk.console.Captures 0 .stdout [] none :=
  ⟨rfl, Sink.hasRoom_stdout, rfl⟩

theorem Desk.captures_ticks {e : EmitterId} {o : Outlet} (d d' : Desk) (hd : d.Ticks d')
    (h : ∃ es, d.Captures e o es none) : ∃ es, d'.Captures e o es none := by
  obtain ⟨es, h⟩ := h
  exact ⟨es, h.tick hd⟩

/-- Each record is counted with the thread that made it. -/
theorem countP_eq_sum_own {s : Finset ThreadId} (f : Kind × LockName → Bool)
    {rs : List (ThreadId × Kind × LockName)} (h : ∀ r ∈ rs, r.1 ∈ s) :
    rs.countP (fun r => f r.2) = ∑ t ∈ s, (rs.filterMap (own? t)).countP f := by
  induction rs with
  | nil => simp
  | cons r rs ih =>
    obtain ⟨hr, hrs⟩ := List.forall_mem_cons.mp h
    have hone (t : ThreadId) : ((r :: rs).filterMap (own? t)).countP f =
        (rs.filterMap (own? t)).countP f + if r.1 = t then (if f r.2 then 1 else 0) else 0 := by
      rw [List.filterMap_cons, own?]
      by_cases ht : r.1 = t
      · simp [ht, List.countP_cons]
      · simp [ht]
    rw [List.countP_cons, ih hrs, Finset.sum_congr rfl fun t _ => hone t, Finset.sum_add_distrib,
      Finset.sum_ite_eq s r.1, if_pos hr]

namespace World

variable {R V : Type} {w w' : World V R} {t : ThreadId}

theorem countP_of_tells {rs : List (ThreadId × Kind × LockName)} {es : List Event}
    (h : List.Forall₂ w.Tells rs es) (f : Kind × LockName → Bool) :
    es.countP (fun e => f (e.kind, e.lock)) = rs.countP fun r => f r.2 := by
  induction h with
  | nil => rfl
  | cons hr _ ih => rw [List.countP_cons, List.countP_cons, ih, hr.1, hr.2.1]

variable [Recorder R]

/-- A thread between two calls does no deed. -/
theorem deed?_of_idle (hs : (w.thread t).stage = .idle) : w.deed? t w' = none := by
  rw [deed?, hs]
  rfl

theorem deed?_of_finished {a : Answer V} (hs : (w.thread t).stage = .finished a) :
    w.deed? t w' = none := by
  rw [deed?, hs]
  rfl

end World

namespace Play

variable {V R σ : Type}

section Told

variable [Recorder R] {r : Routine V σ} {P : R → Prop} {own : ThreadId → List (Kind × LockName)}
  {p₀ p p' : Play V R σ} {t : ThreadId}

/-- No record is lost. -/
theorem Follows.taken (h : p.Follows r P own) (hr : Recorder.Keeps r.emitter P) {k : Kind}
    {g : Guard} (hu : (p.world.thread t).stage.utters = some (k, g)) :
    p.world.taken t k g = true := by
  have hg : g.emitter = r.emitter := by
    obtain ⟨gs, rs₀, rs₁, _, hwithin, _, _⟩ := h.stands t
    have allows := r.allows t (p.places.get t)
    have through := r.through t (p.places.get t)
    generalize (p.world.thread t).stage = st, r.script t (p.places.get t) = a
      at hwithin hu allows
    cases hwithin with
    | attempting | recording =>
      cases hu
      exact allows.1
    | leaving hg | waiting hg | waking hg =>
      cases hu
      exact through _ _ hg
    | _ => cases hu
  obtain ⟨w₁, he, _⟩ := p.world.exists_emit hr h.reliable t k g.name
  rw [World.taken, hg, he]
  rfl

/-- Every deed of a worker is a record that was taken. -/
theorem Follows.told_of_deed? (h : p.Follows r P own) (hr : Recorder.Keeps r.emitter P)
    {pick : List Waiter → Option Waiter} (ha : p.act r.script t pick = some p') {d : Deed}
    (hd : p.deed? t p' = some d) : ∃ k name, d.told? = some (t, k, name) := by
  cases hu : (p.world.thread t).stage.utters with
  | some kg =>
    obtain ⟨k, g⟩ := kg
    obtain ⟨d', hd', htold, _⟩ := World.exists_deed?_of_utters p'.world hu
    rw [h.taken hr hu] at htold
    rw [deed?, hd'] at hd
    cases hd
    exact ⟨k, g.name, htold⟩
  | none =>
    exfalso
    cases Act.of_act ha with
    | begin hs | pause hs | note hs | arrive hs | meet hs | stop hs =>
      rw [deed?, World.deed?_of_idle hs] at hd
      contradiction
    | collect hs =>
      rw [deed?, World.deed?_of_finished hs] at hd
      contradiction
    | advance ha' =>
      have hstep := World.step_of_advance ha'
      rw [deed?, World.deed?, hu] at hd
      split at hd
      · contradiction
      · contradiction
      · split at hd
        · rename_i hs hs'
          rw [hs] at hstep
          cases hstep with
          | occupied | acquired => simp at hs'
          | poisoned _ hp =>
            rw [(h.immune _).poisoned] at hp
            contradiction
        · rename_i c g resume a hs hs'
          rw [hs] at hstep
          cases hstep with
          | parked => simp at hs'
          | mixed hx =>
            obtain ⟨gs, rs₀, rs₁, _, hwithin, _, _⟩ := h.stands t
            have allows := r.allows t (p.places.get t)
            rw [hs] at hwithin
            generalize r.script t (p.places.get t) = act at hwithin allows
            cases hwithin with
            | parking hg =>
              obtain ⟨g', hg', hmutex, _⟩ := allows
              rw [hg] at hg'
              cases hg'
              rw [h.not_mixed hmutex] at hx
              contradiction
        · contradiction

variable {workers : List ThreadId} {drift : R → R → Prop} {ds : List Deed}

theorem Chronicle.told (h₀ : Opens r P p₀) (hr : Recorder.Keeps r.emitter P)
    (hd : ∀ a b, drift a b → P a → P b) (h : Chronicle r.script workers drift deed? p₀ ds p) :
    ∀ d ∈ ds, ∃ t ∈ workers, ∃ k name, d.told? = some (t, k, name) := by
  induction h with
  | start => exact List.forall_mem_nil _
  | act t ht pick h ha ih =>
    intro d hm
    rcases List.mem_append.mp hm with hm | hm
    · exact ih d hm
    · obtain ⟨own, hf⟩ := h.exists_follows h₀ hr hd
      exact ⟨t, ht, hf.told_of_deed? hr ha (Option.mem_toList.mp hm)⟩
  | rouse t _ _ ih | drift rec _ _ ih => exact ih

end Told

section Stream

variable {r : Routine V σ} {o : Outlet} {home : LockName → MutexId} {p₀ p : Play V Desk σ}
  {workers : List ThreadId} {ds : List Deed}

theorem Opens.fresh {P : Desk → Prop} (h : Opens r P p₀) : p₀.world.Fresh := ⟨h.threads, h.free⟩

/-- What workers come to by traced calls is the course of a book, and the outlet of the emitter
shows it. -/
theorem Chronicle.exists_streams (h₀ : p₀.world.Fresh)
    (hc : p₀.world.recorder.Captures r.emitter o [] none)
    (ht : ∀ t s c next, r.script t s = .call c next → c.Traced r.emitter home)
    (h : Chronicle r.script workers Desk.Ticks deed? p₀ ds p) :
    (∃ b, Course ds b ∧ World.Agrees r.emitter home p.world b) ∧
      ∃ es room, World.Streams r.emitter o p.world ds es room := by
  induction h with
  | start =>
    have htold : p₀.world.Told [] [] := .start fun t => by rw [h₀.threads t]
    exact ⟨⟨_, .start, h₀.agrees⟩, [], none, hc, htold.told, htold.tagged, .nil, by simp⟩
  | @act ds p p' t _ pick _ ha ih =>
    obtain ⟨⟨b, hcourse, hagrees⟩, es, room, hs⟩ := ih
    have idle (hs : (p.world.thread t).stage = .idle) : deed? p t p' = none :=
      World.deed?_of_idle hs
    cases Act.of_act ha with
    | begin hi hcall hb =>
      have hagrees' := World.agrees_of_begin hagrees (ht _ _ _ _ hcall) hb
      rw [World.turn_page] at hagrees'
      rw [idle hi, Option.toList_none, List.append_nil]
      exact ⟨⟨b, hcourse, hagrees'⟩, es, room, hs.of_outer (World.outer_begin hb)⟩
    | advance ha' =>
      obtain ⟨page, hturn, hagrees'⟩ := World.turns_advance hagrees ha'
      exact ⟨⟨_, .turn t hcourse hturn, hagrees'⟩, hs.advance hagrees ha'⟩
    | @collect a _ _ hf _ =>
      have hcollect : p.world.collect t = some (a, p.world.setStage t .idle) := by
        rw [World.collect, hf]
      have hagrees' := World.agrees_of_collect hagrees hcollect
      rw [World.turn_page] at hagrees'
      rw [deed?, World.deed?_of_finished hf, Option.toList_none, List.append_nil]
      exact ⟨⟨b, hcourse, hagrees'⟩, es, room, hs.of_outer (World.outer_collect hcollect)⟩
    | pause hi | arrive hi | meet hi | stop hi =>
      rw [idle hi, Option.toList_none, List.append_nil]
      exact ⟨⟨b, hcourse, hagrees⟩, es, room, hs⟩
    | note hi =>
      rw [idle hi, Option.toList_none, List.append_nil]
      exact ⟨⟨b, hcourse, hagrees.fits, hagrees.rest, hagrees.traced⟩, es, room, hs.of_outer rfl⟩
  | rouse t _ hw ih =>
    obtain ⟨⟨b, hcourse, hagrees⟩, es, room, hs⟩ := ih
    exact ⟨⟨b, hcourse, World.agrees_of_rouse hagrees hw⟩, es, room,
      hs.of_outer (World.outer_rouse hw)⟩
  | drift rec _ hd ih =>
    obtain ⟨⟨b, hcourse, hagrees⟩, es, room, hs⟩ := ih
    exact ⟨⟨b, hcourse, hagrees.fits, hagrees.rest, hagrees.traced⟩, es, room,
      hs.captures.tick hd, hs.told, ⟨hs.tagged.le, hs.tagged.unique⟩, hs.closing, hs.lost⟩

/-- The events that the outlet shows are those of the deeds. -/
structure Tells (workers : List ThreadId) (o : Outlet) (p : Play V Desk σ) (ds : List Deed)
    (es : List Event) : Prop where
  events : Check.events? (p.world.recorder.bytes o) = some es
  injective : Function.Injective p.world.title
  gist : es.map Event.gist = ds.filterMap (Deed.gist? p.world.title)
  records : ∀ t, recordsOf (p.world.title t) es = own Deed.told? t ds
  others : ∀ tid, (∀ t, p.world.title t ≠ tid) → recordsOf tid es = []
  exclusion : ∃ hs, Exclusion.run es = .ok hs
  countP : ∀ f : Kind × LockName → Bool, es.countP (fun e => f (e.kind, e.lock)) =
    ∑ t ∈ workers.toFinset, (own Deed.told? t ds).countP f

theorem kinds_eq_recordsOf (es : List Event) (tid : String) (name : LockName) :
    Lifecycle.kinds es tid name = ((recordsOf tid es).filter (·.2 = name)).map (·.1) := by
  induction es with
  | nil => rfl
  | cons e es ih =>
    by_cases ht : e.tid = tid <;> by_cases hn : e.lock = name <;>
      simp_all [Lifecycle.kinds, recordsOf]

/-- The checker accepts the stream if it accepts what each worker does to each lock. -/
theorem Tells.lifecycle {es : List Event} (h : Tells workers o p ds es)
    (hall : ∀ t name, ((((own Deed.told? t ds).filter (·.2 = name)).map (·.1)).foldlM
      Phase.next? .idle).isSome) : ∃ ps, Lifecycle.run es = .ok ps := by
  refine (Lifecycle.exists_run_iff es).mpr fun tid name => ?_
  rw [kinds_eq_recordsOf]
  by_cases ht : ∃ t, p.world.title t = tid
  · obtain ⟨t, rfl⟩ := ht
    rw [h.records]
    exact hall t name
  · rw [h.others tid (not_exists.mp ht)]
    rfl

/-- Whatever workers do by a routine of traced calls is told by the stream, of which the checker
finds that locks exclude each other. -/
theorem Chronicle.exists_tells {P : Desk → Prop} (h₀ : Opens r P p₀)
    (hr : Recorder.Keeps r.emitter P) (hd : ∀ a b, Desk.Ticks a b → P a → P b)
    (hc : p₀.world.recorder.Captures r.emitter o [] none)
    (ht : ∀ t s c next, r.script t s = .call c next → c.Traced r.emitter home)
    (h : Chronicle r.script workers Desk.Ticks deed? p₀ ds p) :
    ∃ es, Tells workers o p ds es := by
  obtain ⟨⟨b, hcourse, _⟩, es, room, hs⟩ := h.exists_streams h₀.fresh hc ht
  have htold := h.told h₀ hr hd
  have hlost : ∀ d ∈ ds, ¬ d.Lost := by
    intro d hm hl
    obtain ⟨_, _, _, _, he⟩ := htold d hm
    rw [hl.told?] at he
    contradiction
  have hfouled : ¬ Deed.Fouled ds := by
    rintro ⟨t, name, kind, _, hsub⟩
    obtain ⟨_, _, _, _, he⟩ := htold _ (hsub.subset (List.mem_cons_self ..))
    contradiction
  refine ⟨es, ?_, hs.tagged.title_injective, hs.gist, World.recordsOf_title hs.tagged hs.told,
    fun tid => World.recordsOf_eq_nil hs.told, ?_, fun f => ?_⟩
  · rw [hs.captures.bytes]
    exact Check.events?_bytes es
  · rw [Exclusion.exists_run_iff, hs.gist]
    rcases Exclusion.shows_course hs.tagged.title_injective hcourse hlost with
      ⟨hf, _⟩ | ⟨_, hs, he, _⟩
    · exact absurd hf hfouled
    · exact ⟨hs, he⟩
  · rw [World.countP_of_tells hs.told]
    refine countP_eq_sum_own f fun rec hm => ?_
    obtain ⟨d, hd, he⟩ := List.mem_filterMap.mp hm
    obtain ⟨t, ht, k, name, he'⟩ := htold d hd
    rw [he] at he'
    cases he'
    exact List.mem_toFinset.mpr ht

end Stream

end Play

end LockTrace
