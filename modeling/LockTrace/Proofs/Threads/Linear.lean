import LockTrace.Proofs.Threads.Emission
import LockTrace.Proofs.Threads.Truth
import Mathlib.Data.Finset.Card

namespace LockTrace

variable {V W : Type}

/-- The call makes a record through the emitter. -/
def Call.Emits (e : EmitterId) : Call V → Prop
  | .emit e' _ label => e' = e ∧ label ≠ ""
  | _ => False

/-- The record that a call is to make. -/
def Label.asked? : Label V → Option (ThreadId × Kind × LockName)
  | .begin t (.emit _ k label) => (LockName.ofString? label).map fun name => (t, k, name)
  | _ => none

theorem Hall.now_mono {h : Hall W} {n : Nat} (hn : h.elapsed ≤ n) :
    h.now.count ≤ ({ h with elapsed := n } : Hall W).now.count := by
  have hsize : UInt64.size = 18446744073709551616 := rfl
  simp only [Hall.now, UInt64.le_iff_toNat_le, UInt64.toNat_ofNat', hsize]
  omega

namespace Task

/-- The event that is being recorded, once it is known. -/
def event? : Task → Option Event
  | .encode ev | .work ev _ => some ev
  | _ => none

/-- The time of the record, once it is known. -/
def time? : Task → Option Millis
  | .time => none
  | .tag stamp => some stamp
  | .encode ev | .work ev _ => some ev.time

/-- The bytes of the record that have not arrived yet. -/
def left : Task → List UInt8
  | .encode ev => ev.bytes
  | .work _ j => j.left
  | _ => []

/-- Nothing has gone wrong so far. -/
def Sound : Task → Prop
  | .work _ j => j.Sound
  | _ => True

end Task

namespace Booth

variable (b : Booth W)

def event? : Option Event := b.inside.bind (·.2.event?)

def left : List UInt8 := (b.inside.map (·.2.left)).getD []

/-- The times of some records and of the one that is being made. -/
def times (es : List Event) : List UInt64 :=
  es.map (·.time.count) ++ (b.inside.bind (·.2.time?)).toList.map (·.count)

section Inside

variable {b} {t : ThreadId} {task : Task}

theorem event?_of_inside (h : b.inside = some (t, task)) : b.event? = task.event? := by
  rw [event?, h]
  rfl

theorem left_of_inside (h : b.inside = some (t, task)) : b.left = task.left := by
  rw [left, h]
  rfl

theorem event?_of_empty (h : b.inside = none) : b.event? = none := by rw [event?, h]; rfl

theorem times_of_inside (h : b.inside = some (t, task)) (es : List Event) :
    b.times es = es.map (·.time.count) ++ task.time?.toList.map (·.count) := by
  rw [times, h]
  rfl

theorem times_of_empty (h : b.inside = none) (es : List Event) :
    b.times es = es.map (·.time.count) := by
  rw [times, h]
  exact List.append_nil _

theorem left_of_empty (h : b.inside = none) : b.left = [] := by rw [left, h]; rfl

end Inside

variable [Writer W]

/-- Nothing has happened yet, and nothing is going to fail. -/
structure Opens : Prop where
  steady : b.sink.Steady
  arrived : b.arrived = []
  inside : b.inside = none

/-- What has arrived is the records of some events, each of them whole, and then what there is so
far of the one that is being made. `see` says what can be seen of bytes that the sink takes. -/
structure Keeps (see : List UInt8 → List UInt8) (es : List Event) : Prop where
  steady : b.sink.Steady
  visible : b.sink.visible = see
  sound : ∀ t task, b.inside = some (t, task) → task.Sound
  bytes : Chunk.content b.arrived ++ see b.left = see ((es ++ b.event?.toList).flatMap Event.bytes)

namespace Keeps

variable {b} {see : List UInt8 → List UInt8} {es : List Event} {t : ThreadId} {ev : Event}

/-- A thread goes on to a task that has the same bytes left to write, of the same event. -/
theorem seat (h : b.Keeps see es) {task : Task} (hs : task.Sound) (hl : task.left = b.left)
    (he : task.event? = b.event?) : Keeps { b with inside := some (t, task) } see es where
  steady := h.steady
  visible := h.visible
  sound t' task' ht := by
    cases ht
    exact hs
  bytes := by
    have hb := h.bytes
    rw [← hl, ← he] at hb
    exact hb

/-- The event that is to be recorded is known, and nothing of it has arrived. -/
theorem encode (h : b.Keeps see es) (hl : b.left = []) (he : b.event? = none) :
    Keeps { b with inside := some (t, .encode ev) } see es where
  steady := h.steady
  visible := h.visible
  sound t' task' ht := by
    cases ht
    trivial
  bytes := by
    have hb := h.bytes
    have hnil : see [] = [] := by rw [← h.visible, Sink.visible_nil]
    rw [hl, he, Option.toList_none, List.append_nil, hnil, List.append_nil] at hb
    rw [left_of_inside rfl, event?_of_inside rfl, Task.left, Task.event?, Option.toList_some,
      List.flatMap_append, List.flatMap_singleton, ← h.visible, Sink.visible_append, h.visible, hb]

theorem work (h : b.Keeps see es) {j : Job} (hb : b.inside = some (t, .work ev j)) :
    (b.work t ev j).Keeps see es := by
  obtain ⟨hs, hsound, hv, hc⟩ := h.steady.work (h.sound t _ hb)
  have hbytes := h.bytes
  rw [left_of_inside hb, event?_of_inside hb] at hbytes
  rw [h.visible] at hv hc
  refine ⟨hs, hv, fun t' task ht => ?_, ?_⟩
  · cases ht
    exact hsound
  · rw [left_of_inside rfl, event?_of_inside rfl, Booth.work, Chunk.content_append,
      List.append_assoc]
    exact (congrArg (Chunk.content b.arrived ++ ·) hc).trans hbytes

theorem vacate (h : b.Keeps see es) {r : Except IoError Unit}
    (hb : b.inside = some (t, .work ev (.done r))) :
    b.vacate.Keeps see (es ++ [ev]) ∧ r = .ok () := by
  have hbytes := h.bytes
  have hr : r = .ok () := by
    cases r with
    | ok => rfl
    | error cause => exact (h.sound t _ hb cause rfl).elim
  rw [left_of_inside hb, event?_of_inside hb] at hbytes
  refine ⟨⟨h.steady, h.visible, nofun, ?_⟩, hr⟩
  rw [left_of_empty rfl, event?_of_empty rfl, Option.toList_none, List.append_nil]
  exact hbytes

end Keeps

end Booth

namespace World

open Booth (Keeps)

variable [Writer W] {w w' : World V (Hall W)} {t : ThreadId} {e : EmitterId} {k : Kind}
  {name : LockName} {T : Finset ThreadId} {see : List UInt8 → List UInt8} {ls : List (Label V)}
  {es : List Event} {ev : Event}

/-- The threads that have a tag. -/
def taggedOf (w : World V (Hall W)) (T : Finset ThreadId) : Finset ThreadId :=
  T.filter fun t => (w.thread t).tag.isSome

omit [Writer W] in
theorem taggedOf_setStage (t : ThreadId) (s : Stage V) :
    (w.setStage t s).taggedOf T = w.taggedOf T := by
  simp only [taggedOf, tag_of_outer (outer_setStage t s)]

omit [Writer W] in
theorem tells_setStage (t : ThreadId) (s : Stage V) {r : ThreadId × Kind × LockName}
    (h : w.Tells r ev) : (w.setStage t s).Tells r ev := by
  refine h.mono fun n hn => ?_
  rw [tag_of_outer (outer_setStage t s)]
  exact hn

theorem advance_of_emitter {p : Prop} (hs : (w.thread t).stage = .idle ∨
    (w.thread t).stage = .finished .ok ∨ p ∧ ∃ k name, (w.thread t).stage = .emitting e k name)
    (hp : (w.thread t).stage.pending? = none) (pick : List Waiter → Option Waiter) :
    w.advance t pick = none := by
  rcases hs with hs | hs | ⟨_, k, name, hs⟩
  · simp only [advance, hs]
  · simp only [advance, hs]
  · rw [hs] at hp
    contradiction

omit [Writer W] in
theorem rouse_of_emitter {p : Prop} (hs : (w.thread t).stage = .idle ∨
    (w.thread t).stage = .finished .ok ∨ p ∧ ∃ k name, (w.thread t).stage = .emitting e k name) :
    w.rouse t = none := by
  rcases hs with hs | hs | ⟨_, k, name, hs⟩ <;> simp only [World.rouse, hs]

/-- After some steps of threads that do nothing but make records through one emitter, the events
are those of the records that are completed. -/
structure Lines (e : EmitterId) (T : Finset ThreadId) (see : List UInt8 → List UInt8)
    (w : World V (Hall W)) (ls : List (Label V)) (es : List Event) : Prop where
  tagged : w.Tagged
  counted : w.tags ≤ (w.taggedOf T).card
  stages : ∀ t, (w.thread t).stage = .idle ∨ (w.thread t).stage = .finished .ok ∨
    t ∈ T ∧ ∃ k name, (w.thread t).stage = .emitting e k name
  answers : ∀ t, ls.filterMap (Label.answer? t) ++ (w.thread t).stage.answered?.toList =
    .replicate (own Label.record? t ls).length .ok
  order : ∀ t, own Label.asked? t ls =
    own Label.record? t ls ++ ((w.thread t).stage.pending?.map (·.2)).toList
  told : List.Forall₂ w.Tells (ls.filterMap Label.record?) es
  inside : ∀ t task, (w.booth e).inside = some (t, task) →
    ∃ k name, (w.thread t).stage = .emitting e k name ∧ ∀ ev ∈ task.event?, w.Tells (t, k, name) ev
  keeps : (w.booth e).Keeps see es
  sorted : ((w.booth e).times es).Pairwise (· ≤ ·)
  past : ∀ x ∈ (w.booth e).times es, x ≤ w.recorder.now.count

namespace Lines

theorem emitting (h : Lines e T see w ls es) {e' : EmitterId}
    (hp : (w.thread t).stage.pending? = some (e', k, name)) :
    e' = e ∧ t ∈ T ∧ (w.thread t).stage = .emitting e k name := by
  rcases h.stages t with hs | hs | ⟨ht, k', name', hs⟩
  all_goals
    rw [hs] at hp
    cases hp
  exact ⟨rfl, ht, hs⟩

/-- A step that begins nothing, completes nothing and answers nothing. -/
theorem quiet (h : Lines e T see w ls es) {l : Label V} (ha : l.asked? = none)
    (hr : l.record? = none) (hc : ∀ t, l.answer? t = none) : Lines e T see w (ls ++ [l]) es :=
  { h with
    answers := fun t => by
      rw [List.filterMap_append, own_append, hr, List.filterMap_cons, hc]
      simpa using h.answers t
    order := fun t => by
      rw [own_append, own_append, ha, hr, h.order]
      simp
    told := by
      rw [List.filterMap_append, List.filterMap_cons, hr, List.filterMap_nil, List.append_nil]
      exact h.told }

/-- The booth of the emitter changes, and the thread inside is still the one that it was. -/
theorem setBooth (h : Lines e T see w ls es) {b : Booth W} (hk : b.Keeps see es)
    (hb : ∀ t task, b.inside = some (t, task) → ∃ k name,
      (w.thread t).stage = .emitting e k name ∧ ∀ ev ∈ task.event?, w.Tells (t, k, name) ev)
    (hs : (b.times es).Pairwise (· ≤ ·)) (hn : ∀ x ∈ b.times es, x ≤ w.recorder.now.count) :
    Lines e T see (w.setBooth e b) ls es :=
  { h with
    tagged := ⟨h.tagged.le, h.tagged.unique⟩
    inside := by
      rw [booth_setBooth_self]
      exact hb
    keeps := by
      rw [booth_setBooth_self]
      exact hk
    sorted := by
      rw [booth_setBooth_self]
      exact hs
    past := by
      rw [booth_setBooth_self]
      exact hn }

/-- The thread inside goes on to a task, and the time of its record stays what it was. -/
theorem seat (h : Lines e T see w ls es) {task : Task}
    (hk : Keeps { w.booth e with inside := some (t, task) } see es)
    (hs : (w.thread t).stage = .emitting e k name)
    (hev : ∀ ev ∈ task.event?, w.Tells (t, k, name) ev)
    (ht : es.map (·.time.count) ++ task.time?.toList.map (·.count) = (w.booth e).times es) :
    Lines e T see (w.seat t e task) ls es := by
  refine h.setBooth hk (fun t' task' hb => ?_) ?_ ?_
  · cases hb
    exact ⟨k, name, hs, hev⟩
  · rw [Booth.times_of_inside rfl, ht]
    exact h.sorted
  · rw [Booth.times_of_inside rfl, ht]
    exact h.past

/-- A new tag goes to a thread that had none. -/
theorem counted_tagOf (h : Lines e T see w ls es) (ht : t ∈ T) :
    (w.tagOf t).2.tags ≤ ((w.tagOf t).2.taggedOf T).card := by
  cases hw : (w.thread t).tag with
  | some n =>
    rw [tagOf_some w hw]
    exact h.counted
  | none =>
    have hmore : w.taggedOf T ⊂ (w.tagOf t).2.taggedOf T := by
      refine Finset.ssubset_iff_of_subset (fun t' hm => ?_) |>.mpr ⟨t, ?_, ?_⟩
      · obtain ⟨hT, hsome⟩ := Finset.mem_filter.mp hm
        obtain ⟨n, hn⟩ := Option.isSome_iff_exists.mp hsome
        refine Finset.mem_filter.mpr ⟨hT, ?_⟩
        rw [tag_tagOf_of_some hn]
        rfl
      · refine Finset.mem_filter.mpr ⟨ht, ?_⟩
        rw [tag_tagOf, if_pos rfl]
        rfl
      · intro hm
        have hsome := (Finset.mem_filter.mp hm).2
        rw [hw] at hsome
        contradiction
    have htags : (w.tagOf t).2.tags = w.tags + 1 := by rw [tagOf_none w hw]
    rw [htags]
    exact Nat.lt_of_le_of_lt h.counted (Finset.card_lt_card hmore)

theorem tagOf (h : Lines e T see w ls es) (ht : t ∈ T) : Lines e T see (w.tagOf t).2 ls es := by
  have hstage (t' : ThreadId) : ((w.tagOf t).2.thread t').stage = (w.thread t').stage := by
    by_cases he : t = t'
    · subst he
      exact stage_tagOf w t
    · rw [thread_tagOf_ne w he]
  have htells {r : ThreadId × Kind × LockName} {ev : Event} (hr : w.Tells r ev) :
      (w.tagOf t).2.Tells r ev := hr.mono fun _ hn => tag_tagOf_of_some hn
  exact {
    h with
    tagged := h.tagged.tagOf t
    counted := h.counted_tagOf ht
    stages := fun t' => hstage t' ▸ h.stages t'
    answers := fun t' => hstage t' ▸ h.answers t'
    order := fun t' => hstage t' ▸ h.order t'
    told := h.told.imp fun _ _ => htells
    inside := fun t' task hb => by
      rw [booth_tagOf] at hb
      obtain ⟨k, name, hs, hev⟩ := h.inside t' task hb
      exact ⟨k, name, hstage t' ▸ hs, fun ev hm => htells (hev ev hm)⟩
    keeps := by
      rw [booth_tagOf]
      exact h.keeps
    sorted := by
      rw [booth_tagOf]
      exact h.sorted
    past := by
      rw [booth_tagOf, recorder_tagOf]
      exact h.past }

/-- Every part of an emission. -/
theorem part (h : Lines e T see w ls es) {e' : EmitterId}
    (hp : (w.thread t).stage.pending? = some (e', k, name)) (hm : w.Part t e' k name w') :
    Lines e T see w' ls es := by
  obtain ⟨rfl, hT, hs⟩ := h.emitting hp
  cases hm with
  | enter hb =>
    refine h.seat (h.keeps.seat trivial (Booth.left_of_empty hb).symm
      (Booth.event?_of_empty hb).symm) hs (fun ev hev => ?_) ?_
    · cases hev
    · rw [Booth.times_of_empty hb]
      exact List.append_nil _
  | time hb =>
    have hsorted := h.sorted
    have hpast := h.past
    rw [Booth.times_of_inside hb, Task.time?, Option.toList_none, List.map_nil,
      List.append_nil] at hsorted hpast
    refine h.setBooth (h.keeps.seat trivial (Booth.left_of_inside hb).symm
      (Booth.event?_of_inside hb).symm) (fun t' task' hb' => ?_) ?_ ?_
    · cases hb'
      refine ⟨k, name, hs, fun ev hev => ?_⟩
      cases hev
    · rw [Booth.times_of_inside rfl]
      refine List.pairwise_append.mpr ⟨hsorted, List.pairwise_singleton .., fun x hx y hy => ?_⟩
      rw [List.mem_singleton.mp hy]
      exact hpast x hx
    · rw [Booth.times_of_inside rfl]
      intro x hx
      rcases List.mem_append.mp hx with hx | hx
      · exact hpast x hx
      · rw [List.mem_singleton.mp hx]
        exact UInt64.le_refl _
  | @tag time hb =>
    obtain ⟨n, hn, hth⟩ := exists_thread_tagOf w t
    have hb' : ((w.tagOf t).2.booth e').inside = some (t, .tag time) := by
      rw [booth_tagOf]
      exact hb
    refine (h.tagOf hT).seat ((h.tagOf hT).keeps.encode (Booth.left_of_inside hb')
      (Booth.event?_of_inside hb')) (stage_tagOf w t ▸ hs) (fun ev hev => ?_) ?_
    · cases hev
      exact ⟨rfl, rfl, n, by rw [hth], hn⟩
    · rw [Booth.times_of_inside hb']
      rfl
  | @encode ev hb =>
    have hl : (Task.work ev (.write ev.bytes)).left = (w.booth e').left := by
      rw [Booth.left_of_inside hb, Task.left, Task.left, Job.left]
    have hsound : (Task.work ev (.write ev.bytes)).Sound := by
      intro cause hj
      cases hj
    refine h.seat (h.keeps.seat hsound hl (Booth.event?_of_inside hb).symm) hs
      (fun ev' hev => ?_) ?_
    · obtain ⟨_, _, hs', hev'⟩ := h.inside t _ hb
      rw [hs] at hs'
      cases hs'
      exact hev' ev' hev
    · rw [Booth.times_of_inside hb]
      rfl
  | @work ev j hb hj =>
    refine h.setBooth (h.keeps.work hb) (fun t' task' hb' => ?_) ?_ ?_
    · cases hb'
      obtain ⟨k', name', hs', hev⟩ := h.inside t _ hb
      exact ⟨k', name', hs', hev⟩
    · rw [Booth.times_of_inside rfl]
      exact Booth.times_of_inside hb es ▸ h.sorted
    · rw [Booth.times_of_inside rfl]
      exact Booth.times_of_inside hb es ▸ h.past

theorem inside_emitting (h : Lines e T see w ls es) {task : Task}
    (hb : (w.booth e).inside = some (t, task)) (hp : (w.thread t).stage.pending? = none) :
    False := by
  obtain ⟨k, name, hs, _⟩ := h.inside t task hb
  rw [hs] at hp
  contradiction

/-- A thread that is making no record goes on to another stage. -/
theorem setStage (h : Lines e T see w ls es) {s : Stage V} {l : Label V}
    (hp : (w.thread t).stage.pending? = none)
    (hs : s = .idle ∨ s = .finished .ok ∨ t ∈ T ∧ ∃ k name, s = .emitting e k name)
    (hr : l.record? = none)
    (hc : ∀ t', (l.answer? t').toList ++ (if t = t' then s.answered?.toList else []) =
      if t = t' then (w.thread t).stage.answered?.toList else [])
    (ha : ∀ t', (l.asked?.bind (own? t')).toList =
      if t = t' then (s.pending?.map (·.2)).toList else []) :
    Lines e T see (w.setStage t s) (ls ++ [l]) es where
  tagged := h.tagged.of_outer (outer_setStage t s)
  counted := by
    rw [taggedOf_setStage]
    exact h.counted
  stages t' := by
    by_cases ht : t = t'
    · subst ht
      rw [thread_setStage_self]
      exact hs
    · rw [thread_setStage_ne w ht]
      exact h.stages t'
  answers t' := by
    have hl : [l].filterMap (Label.answer? t') = (l.answer? t').toList := by
      cases hl : l.answer? t' <;> simp [hl]
    have hc := hc t'
    rw [List.filterMap_append, own_append, hr, hl, List.append_assoc, Option.bind_none,
      Option.toList_none, List.append_nil, ← h.answers t']
    by_cases ht : t = t'
    · subst ht
      rw [if_pos rfl, if_pos rfl] at hc
      rw [thread_setStage_self, hc]
    · rw [if_neg ht, if_neg ht, List.append_nil] at hc
      rw [thread_setStage_ne w ht, hc, List.nil_append]
  order t' := by
    rw [own_append, own_append, hr, ha, h.order t', Option.bind_none, Option.toList_none,
      List.append_nil]
    by_cases ht : t = t'
    · subst ht
      rw [hp, if_pos rfl, thread_setStage_self]
      simp
    · rw [if_neg ht, thread_setStage_ne w ht, List.append_nil]
  told := by
    rw [List.filterMap_append, List.filterMap_cons, hr, List.filterMap_nil, List.append_nil]
    exact h.told.imp fun _ _ => tells_setStage t s
  inside t' task hb := by
    have ht : t ≠ t' := by
      rintro rfl
      exact h.inside_emitting hb hp
    obtain ⟨k, name, hs', hev⟩ := h.inside t' task hb
    rw [thread_setStage_ne w ht]
    exact ⟨k, name, hs', fun ev hm => tells_setStage t s (hev ev hm)⟩
  keeps := h.keeps
  sorted := h.sorted
  past := h.past

theorem begin (h : Lines e T see w ls es) {call : Call V} (hc : call.Emits e) (ht : t ∈ T)
    (hb : w.begin t call = some w') : Lines e T see w' (ls ++ [.begin t call]) es := by
  unfold World.begin at hb
  split at hb
  · rename_i hs
    cases call with
    | emit e' k label =>
      obtain ⟨rfl, hne⟩ := hc
      obtain ⟨name, hname⟩ := Option.ne_none_iff_exists'.mp (mt LockName.ofString?_eq_none.mp hne)
      simp only [opening, hname] at hb
      cases hb
      refine h.setStage (by rw [hs]; rfl) (.inr (.inr ⟨ht, k, name, rfl⟩)) rfl (fun t' => ?_)
        fun t' => ?_
      · rw [hs]
        exact (ite_self _).trans (ite_self _).symm
      · simp only [Label.asked?, hname, Option.map_some, Option.bind_some, own?, Stage.pending?]
        split <;> rfl
    | lock | leave | access | wait | waitWhile | notifyOne | notifyAll | tag => exact hc.elim
  · contradiction

theorem collect (h : Lines e T see w ls es) {a : Answer V} (hc : w.collect t = some (a, w')) :
    Lines e T see w' (ls ++ [.collect t a]) es := by
  unfold World.collect at hc
  split at hc
  · rename_i hs
    cases hc
    refine h.setStage (by rw [hs]; rfl) (.inl rfl) rfl (fun t' => ?_) fun t' => (ite_self _).symm
    rw [hs, Label.answer?]
    split <;> rfl
  · contradiction

theorem tick (h : Lines e T see w ls es) {n : Nat} (hn : w.recorder.elapsed ≤ n) :
    Lines e T see { w with recorder := { w.recorder with elapsed := n } } (ls ++ [.tick]) es := by
  have hq := h.quiet (l := .tick) rfl rfl fun _ => rfl
  exact {
    hq with
    tagged := ⟨hq.tagged.le, hq.tagged.unique⟩
    past := fun x hx => UInt64.le_trans (hq.past x hx) (Hall.now_mono hn) }

/-- The thread inside has made its record, and leaves. -/
theorem record (h : Lines e T see w ls es) {e' : EmitterId} {r : Except IoError Unit}
    (hp : (w.thread t).stage.pending? = some (e', k, name))
    (hb : (w.booth e').inside = some (t, .work ev (.done r))) :
    Lines e T see ((w.vacate e').resume t (r.mapError .sink))
      (ls ++ [.record t k name]) (es ++ [ev]) := by
  obtain ⟨rfl, hT, hs⟩ := h.emitting hp
  obtain ⟨hk, rfl⟩ := h.keeps.vacate hb
  have htells : w.Tells (t, k, name) ev := by
    obtain ⟨k', name', hs', hev⟩ := h.inside t _ hb
    rw [hs] at hs'
    cases hs'
    exact hev ev rfl
  have hw : (w.vacate e').resume t ((Except.ok () : Except IoError Unit).mapError .sink) =
      (w.vacate e').finish t .ok := resume_emitting (w := w.vacate e') hs _
  rw [hw]
  have hown (t' : ThreadId) : own Label.asked? t' (ls ++ [.record t k name]) =
      own Label.asked? t' ls := by
    rw [own_append]
    exact List.append_nil _
  have htimes : (w.booth e').vacate.times (es ++ [ev]) =
      (w.booth e').times es := by
    rw [Booth.times_of_empty rfl, Booth.times_of_inside hb, List.map_append]
    rfl
  have hbooth : ((w.vacate e').finish t .ok).booth e' = (w.booth e').vacate :=
    booth_setBooth_self ..
  constructor
  case tagged =>
    have hv : (w.vacate e').Tagged := ⟨h.tagged.le, h.tagged.unique⟩
    exact hv.of_outer (outer_finish t .ok)
  case counted =>
    have hc := h.counted
    rw [← taggedOf_setStage t (.finished .ok)] at hc
    exact hc
  case stages =>
    intro t'
    by_cases ht : t = t'
    · subst ht
      rw [finish, thread_setStage_self]
      exact .inr (.inl rfl)
    · rw [finish, thread_setStage_ne _ ht]
      exact h.stages t'
  case answers =>
    intro t'
    have ha := h.answers t'
    have hn : [Label.record (V := V) t k name].filterMap (Label.answer? t') = [] := rfl
    rw [List.filterMap_append, own_append, hn, List.append_nil]
    by_cases ht : t = t'
    · subst ht
      rw [hs] at ha
      rw [finish, thread_setStage_self]
      simpa [Label.record?, own?, Stage.answered?, List.replicate_succ'] using ha
    · rw [finish, thread_setStage_ne _ ht, vacate, thread_setBooth]
      simpa [Label.record?, own?, ht] using ha
  case order =>
    intro t'
    rw [hown, h.order t', own_append]
    by_cases ht : t = t'
    · subst ht
      rw [finish, thread_setStage_self, hs]
      simp [Label.record?, own?, Stage.pending?, Stage.utters]
    · rw [finish, thread_setStage_ne _ ht, vacate, thread_setBooth]
      simp [Label.record?, own?, ht]
  case told =>
    rw [List.filterMap_append]
    exact (List.rel_append h.told (.cons htells .nil)).imp fun _ _ => tells_setStage t _
  case inside =>
    intro t' task hb'
    rw [hbooth] at hb'
    contradiction
  case keeps => exact hbooth ▸ hk
  case sorted =>
    rw [hbooth, htimes]
    exact h.sorted
  case past =>
    rw [hbooth, htimes]
    exact h.past

/-- Any step, as long as no thread begins anything but a record of its own. -/
theorem stir (h : Lines e T see w ls es) {l : Label V} (hm : w.Stir l w')
    (hc : ∀ t call, l.begun? = some (t, call) → t ∈ T ∧ call.Emits e) :
    ∃ es', Lines e T see w' (ls ++ [l]) es' := by
  cases hm with
  | begin hb =>
    obtain ⟨ht, hc⟩ := hc _ _ rfl
    exact ⟨es, h.begin hc ht hb⟩
  | collect hc => exact ⟨es, h.collect hc⟩
  | @act t _ pick hp ha =>
    rw [advance_of_emitter (h.stages t) hp] at ha
    contradiction
  | @rouse t _ hr =>
    rw [rouse_of_emitter (h.stages t)] at hr
    contradiction
  | part hp hm => exact ⟨es, (h.part hp hm).quiet rfl rfl fun _ => rfl⟩
  | record hp hb => exact ⟨_, h.record hp hb⟩
  | tick hn => exact ⟨es, h.tick hn⟩

theorem trail (h : Lines e T see w ls es) {ls' : List (Label V)} (htr : Trail Stir w ls' w')
    (hc : ∀ l ∈ ls', ∀ t call, l.begun? = some (t, call) → t ∈ T ∧ call.Emits e) :
    ∃ es', Lines e T see w' (ls ++ ls') es' := by
  induction htr generalizing ls es with
  | nil =>
    rw [List.append_nil]
    exact ⟨es, h⟩
  | cons hm _ ih =>
    obtain ⟨hl, hls⟩ := List.forall_mem_cons.mp hc
    obtain ⟨es₁, h₁⟩ := h.stir hm hl
    obtain ⟨es₂, h₂⟩ := ih h₁ hls
    rw [List.append_assoc] at h₂
    exact ⟨es₂, h₂⟩

/-- Before the first record. -/
theorem start (h : ∀ t, w.thread t = {}) (hn : w.tags = 0) (hb : (w.booth e).Opens) :
    Lines e T (w.booth e).sink.visible w [] [] where
  tagged := (Told.start fun t => by rw [h t]).tagged
  counted := by
    rw [hn]
    exact Nat.zero_le _
  stages t := .inl (by rw [h t])
  answers t := by
    rw [h t]
    rfl
  order t := by
    rw [h t]
    rfl
  told := .nil
  inside t task ht := by
    rw [hb.inside] at ht
    contradiction
  keeps := by
    refine ⟨hb.steady, rfl, fun t task ht => ?_, ?_⟩
    · rw [hb.inside] at ht
      contradiction
    · rw [Booth.left_of_empty hb.inside, Booth.event?_of_empty hb.inside, hb.arrived]
      simp [Chunk.content]
  sorted := by
    rw [Booth.times_of_empty hb.inside]
    exact .nil
  past := by
    rw [Booth.times_of_empty hb.inside]
    simp

end Lines

end World

end LockTrace
