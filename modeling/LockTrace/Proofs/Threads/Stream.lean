import LockTrace.Proofs.Sink.Room
import LockTrace.Proofs.Threads.Run

namespace LockTrace

variable {V R : Type}

namespace World

section Outer

variable {w : World V R}

/-- What a world shows of itself: the recorder, and the tags that were handed out. -/
def outer (w : World V R) : R × Nat × (ThreadId → Option Nat) :=
  (w.recorder, w.tags, fun t => (w.thread t).tag)

theorem outer_setThread {t : ThreadId} {th : Thread V} (h : th.tag = (w.thread t).tag) :
    (w.setThread t th).outer = w.outer := by
  refine Prod.ext rfl (Prod.ext rfl (funext fun t' => ?_))
  change ((w.setThread t th).thread t').tag = (w.thread t').tag
  by_cases ht : t = t'
  · subst ht
    rw [thread_setThread_self, h]
  · rw [thread_setThread_ne w ht]

@[simp] theorem outer_setStage (t : ThreadId) (s : Stage V) :
    (w.setStage t s).outer = w.outer := outer_setThread rfl

@[simp] theorem outer_finish (t : ThreadId) (a : Answer V) :
    (w.finish t a).outer = w.outer := outer_setThread rfl

@[simp] theorem outer_setGuards (t : ThreadId) (slot : Slot) (gs : List Guard) :
    (w.setGuards t slot gs).outer = w.outer := outer_setThread rfl

@[simp] theorem outer_keep (t : ThreadId) (g : Guard) (slot : Slot) :
    (w.keep t g slot).outer = w.outer := outer_setThread rfl

@[simp] theorem outer_setMutex (m : MutexId) (mu : Mutex V) :
    (w.setMutex m mu).outer = w.outer := rfl

@[simp] theorem outer_take (t : ThreadId) (m : MutexId) : (w.take t m).outer = w.outer := rfl

@[simp] theorem outer_free (m : MutexId) (unwinding : Bool) :
    (w.free m unwinding).outer = w.outer := rfl

@[simp] theorem outer_note (n : Notice) : (w.note n).outer = w.outer := rfl

@[simp] theorem outer_setWaiters (c : CondvarId) (ws : List Waiter) :
    (w.setWaiters c ws).outer = w.outer := rfl

@[simp] theorem outer_closing (t : ThreadId) (how : Leave) (g : Guard)
    (result : Except TraceError Unit) : (w.closing t how g result).outer = w.outer := by
  cases how <;> cases result <;> exact outer_setThread rfl

@[simp] theorem outer_rouseAll (xs : List Waiter) : (w.rouseAll xs).outer = w.outer := by
  induction xs generalizing w with
  | nil => rfl
  | cons x xs ih =>
    rcases rouseAll_cons w x xs with ⟨c, g, resume, _, he⟩ | he
    · rw [he, ih, outer_setStage]
    · rw [he, ih]

end Outer

/-- Of what a world shows a step changes only what a record, or a question for a tag, changes. -/
theorem Step.outer [Recorder R] {w w' : World V R} {t : ThreadId} {s : Stage V}
    (h : w.Step t s w') (ht : ∀ e k name, s ≠ .emitting e k name) :
    (∃ k g, s.utters = some (k, g) ∧ w'.outer = (w.emit t g.emitter k g.name).2.outer) ∨
    s.utters = none ∧ (w'.outer = w.outer ∨ w'.outer = (w.tagOf t).2.outer) := by
  cases h with
  | emitted => exact absurd rfl (ht _ _ _)
  | attempted he | unattempted he | recorded he | unrecorded he | refused he | unrefused he
  | left he | slept he | unslept he | woke he | resumed he | unwoken he =>
    refine .inl ⟨_, _, rfl, ?_⟩
    rw [he]
    simp
  | occupied | poisoned | acquired | yielded | freed | accessed | again | enough | mixed | parked
  | rejoined | notifiedAll | notifiedNobody | notifiedOne =>
    refine .inr ⟨rfl, .inl ?_⟩
    simp
  | tagged =>
    refine .inr ⟨rfl, .inr ?_⟩
    simp

section Tags

/-- The tags that were handed out are counted, and no two threads have the same. -/
structure Tagged (w : World V R) : Prop where
  le : ∀ {t : ThreadId} {n : Nat}, (w.thread t).tag = some n → n ≤ w.tags
  unique : ∀ {t t' : ThreadId} {n : Nat}, (w.thread t).tag = some n →
    (w.thread t').tag = some n → t = t'

variable {w w' : World V R}

theorem tag_of_outer (h : w'.outer = w.outer) (t : ThreadId) :
    (w'.thread t).tag = (w.thread t).tag := congrFun (congrArg (·.2.2) h) t

theorem Tagged.of_outer (h : w.Tagged) (ho : w'.outer = w.outer) : w'.Tagged where
  le {t n} ht := by
    have hn : w'.tags = w.tags := congrArg (·.2.1) ho
    rw [hn]
    exact h.le (tag_of_outer ho t ▸ ht)
  unique {t t' _} ht ht' := h.unique (tag_of_outer ho t ▸ ht) (tag_of_outer ho t' ▸ ht')

/-- A thread without a tag gets the next one, and all other tags stay. -/
theorem tag_tagOf (t t' : ThreadId) : ((w.tagOf t).2.thread t').tag =
    if t = t' then some ((w.thread t).tag.getD (w.tags + 1)) else (w.thread t').tag := by
  split
  · rename_i h
    subst h
    cases ht : (w.thread t).tag with
    | some n =>
      rw [tagOf_some w ht, ht]
      rfl
    | none =>
      rw [tagOf_none w ht]
      exact congrArg Thread.tag (thread_setThread_self w t _)
  · rename_i h
    rw [thread_tagOf_ne w h]

/-- A tag stays with its thread. -/
theorem tag_tagOf_of_some {t t' : ThreadId} {n : Nat} (h : (w.thread t').tag = some n) :
    ((w.tagOf t).2.thread t').tag = some n := by
  rw [tag_tagOf]
  split
  · rename_i ht
    rw [ht, h]
    rfl
  · exact h

theorem Tagged.tagOf (h : w.Tagged) (t : ThreadId) : (w.tagOf t).2.Tagged := by
  cases ht : (w.thread t).tag with
  | some n =>
    rw [tagOf_some w ht]
    exact h
  | none =>
    have htag (t' : ThreadId) : ((w.tagOf t).2.thread t').tag =
        if t = t' then some (w.tags + 1) else (w.thread t').tag := by
      rw [tag_tagOf, ht]
      rfl
    have hn : (w.tagOf t).2.tags = w.tags + 1 := by rw [tagOf_none w ht]
    constructor
    · intro t' n hn'
      rw [htag] at hn'
      rw [hn]
      split at hn'
      · exact Nat.le_of_eq (Option.some_inj.mp hn').symm
      · exact Nat.le_succ_of_le (h.le hn')
    · intro t₁ t₂ n h₁ h₂
      rw [htag] at h₁ h₂
      split at h₁ <;> split at h₂
      · rename_i e₁ e₂
        rw [← e₁, ← e₂]
      · cases h₁
        exact absurd (h.le h₂) (Nat.not_succ_le_self _)
      · cases h₂
        exact absurd (h.le h₁) (Nat.not_succ_le_self _)
      · exact h.unique h₁ h₂

/-- The text by which a thread is known, or will be if it is the next to ask. -/
def title (w : World V R) (t : ThreadId) : String :=
  toString ((w.thread t).tag.getD (w.tags + 1 + t))

theorem Tagged.title_injective (h : w.Tagged) : Function.Injective w.title := by
  intro t t' he
  have hd (n : Nat) : Nat.ofDigitChars 10 (toString n).toList 0 = n := by
    rw [Nat.toString_eq_ofList_toDigits, String.toList_ofList, Nat.ofDigitChars_ten_toDigits]
  have hn : (w.thread t).tag.getD (w.tags + 1 + t) =
      (w.thread t').tag.getD (w.tags + 1 + t') := by
    rw [← hd (Option.getD ..), ← hd (((w.thread t').tag).getD _)]
    exact congrArg (fun s => Nat.ofDigitChars 10 s.toList 0) he
  cases ht : (w.thread t).tag with
  | some n =>
    cases ht' : (w.thread t').tag with
    | some n' =>
      rw [ht, ht'] at hn
      obtain rfl : n = n' := hn
      exact h.unique ht ht'
    | none =>
      rw [ht, ht', Option.getD_some, Option.getD_none] at hn
      have := h.le ht
      omega
  | none =>
    cases ht' : (w.thread t').tag with
    | some n' =>
      rw [ht, ht', Option.getD_some, Option.getD_none] at hn
      have := h.le ht'
      omega
    | none =>
      rw [ht, ht', Option.getD_none, Option.getD_none] at hn
      exact Nat.add_left_cancel hn

end Tags

/-- An event says what a record of a thread says. -/
def Tells (w : World V R) (r : ThreadId × Kind × LockName) (e : Event) : Prop :=
  e.kind = r.2.1 ∧ e.lock = r.2.2 ∧ ∃ n, (w.thread r.1).tag = some n ∧ e.tid = toString n

section Told

variable {w w' : World V R} {ds : List Deed} {es : List Event} {t : ThreadId}

theorem Tells.mono {r : ThreadId × Kind × LockName} {ev : Event} (h : w.Tells r ev)
    (ht : ∀ n, (w.thread r.1).tag = some n → (w'.thread r.1).tag = some n) : w'.Tells r ev := by
  obtain ⟨hk, hl, n, hn, hid⟩ := h
  exact ⟨hk, hl, n, ht n hn, hid⟩

theorem title_of_tells {r : ThreadId × Kind × LockName} {ev : Event} (h : w.Tells r ev) :
    w.title r.1 = ev.tid := by
  obtain ⟨_, _, n, hn, hid⟩ := h
  rw [hid, title, hn]
  rfl

/-- The events are just the records of the deeds. -/
structure Told (w : World V R) (ds : List Deed) (es : List Event) : Prop where
  told : List.Forall₂ w.Tells (ds.filterMap Deed.told?) es
  tagged : w.Tagged

/-- Threads that have no tags have told nothing. -/
theorem Told.start (h : ∀ t, (w.thread t).tag = none) : w.Told [] [] where
  told := .nil
  tagged := by
    refine ⟨fun {t n} ht => ?_, fun {t _ n} ht => ?_⟩
    all_goals
      rw [h t] at ht
      contradiction

/-- Tags are all that matters. -/
theorem Told.frame (h : w.Told ds es) (ht : ∀ t, (w'.thread t).tag = (w.thread t).tag)
    (hn : w'.tags = w.tags) : w'.Told ds es where
  told := h.told.imp fun r _ hr => hr.mono fun _ hn => ht r.1 ▸ hn
  tagged := ⟨fun {t _} h' => hn ▸ h.tagged.le (ht t ▸ h'),
    fun {t t' _} h₁ h₂ => h.tagged.unique (ht t ▸ h₁) (ht t' ▸ h₂)⟩

theorem Told.of_outer (h : w.Told ds es) (ho : w'.outer = w.outer) : w'.Told ds es :=
  h.frame (tag_of_outer ho) (congrArg (·.2.1) ho)

theorem Told.untold (h : w.Told ds es) {d : Deed} (hd : d.told? = none) :
    w.Told (ds ++ [d]) es where
  told := by simpa [hd] using h.told
  tagged := h.tagged

theorem Told.tagOf (h : w.Told ds es) (t : ThreadId) : (w.tagOf t).2.Told ds es where
  told := h.told.imp fun _ _ hr => hr.mono fun _ hn => tag_tagOf_of_some hn
  tagged := h.tagged.tagOf t

theorem Told.utter [Recorder R] (h : w.Told ds es) {e : EmitterId} {d : Deed} {k : Kind}
    {name : LockName} {taken : Bool} (hd : d.told? = if taken then some (t, k, name) else none)
    (time : Millis) : (w.emit t e k name).2.Told (ds ++ [d])
      (if taken then es ++ [⟨k, time, (w.tagOf t).1, name⟩] else es) := by
  have ht : (w.emit t e k name).2.Told ds es :=
    (h.tagOf t).frame (fun _ => rfl) rfl
  cases taken with
  | false => exact ht.untold hd
  | true =>
    refine ⟨?_, ht.tagged⟩
    rw [List.filterMap_append, List.filterMap_cons, hd]
    obtain ⟨n, hn, hth⟩ := exists_thread_tagOf w t
    refine List.rel_append ht.told (.cons ⟨rfl, rfl, n, ?_, hn⟩ .nil)
    rw [thread_emit_self, hth]

end Told

/-- The outlet of an emitter shows the records of the deeds that were done. When a record has been
lost there is no room for more. -/
structure Streams (e : EmitterId) (o : Outlet) (w : World V Desk) (ds : List Deed)
    (es : List Event) (room : Option Nat) : Prop where
  captures : w.recorder.Captures e o es room
  told : List.Forall₂ w.Tells (ds.filterMap Deed.told?) es
  tagged : w.Tagged
  closing : Deed.Closing ds
  lost : ∀ d ∈ ds, d.Lost → room = some 0

variable {e : EmitterId} {home : LockName → MutexId} {o : Outlet} {w w' : World V Desk}
  {w₀ : World V Desk} {ds : List Deed} {es : List Event} {room : Option Nat} {t : ThreadId}

theorem Streams.toTold (h : Streams e o w ds es room) : w.Told ds es := ⟨h.told, h.tagged⟩

/-- What a world shows is all that the stream depends on. -/
theorem Streams.of_outer (h : Streams e o w ds es room) (ho : w'.outer = w.outer) :
    Streams e o w' ds es room where
  captures := by
    have hr : w'.recorder = w.recorder := congrArg (·.1) ho
    rw [hr]
    exact h.captures
  told := (h.toTold.of_outer ho).told
  tagged := h.tagged.of_outer ho
  closing := h.closing
  lost := h.lost

/-- A deed without a record that could be taken or lost. -/
theorem Streams.untold (h : Streams e o w ds es room) {d : Deed} (ht : d.told? = none)
    (hl : ¬ d.Lost) : Streams e o w (ds ++ [d]) es room where
  captures := h.captures
  told := (h.toTold.untold ht).told
  tagged := h.tagged
  closing := List.pairwise_append.mpr
    ⟨h.closing, List.pairwise_singleton .., fun d' _ x hx _ => List.mem_singleton.mp hx ▸ ht⟩
  lost x hx hxl := by
    rcases List.mem_append.mp hx with hx | hx
    · exact h.lost x hx hxl
    · exact absurd (List.mem_singleton.mp hx ▸ hxl) hl

theorem Streams.tagOf (h : Streams e o w ds es room) (t : ThreadId) :
    Streams e o (w.tagOf t).2 ds es room where
  captures := by
    rw [recorder_tagOf]
    exact h.captures
  told := (h.toTold.tagOf t).told
  tagged := h.tagged.tagOf t
  closing := h.closing
  lost := h.lost

/-- A deed that makes a record, which is taken or lost. -/
theorem Streams.utter (h : Streams e o w ds es room) {d : Deed} {k : Kind} {name : LockName}
    {taken : Bool} (hk : (w.emit t e k name).1.isOk = taken)
    (ht : d.told? = if taken then some (t, k, name) else none) (hl : d.Lost ↔ taken = false) :
    ∃ es room, Streams e o (w.emit t e k name).2 (ds ++ [d]) es room := by
  have hemit := emit_eq w t e k name
  have h₁ : (w.emit t e k name).1 = (w.recorder.record e k (w.tagOf t).1 name).1 :=
    congrArg Prod.fst hemit
  have h₂ : (w.emit t e k name).2.recorder = (w.recorder.record e k (w.tagOf t).1 name).2 :=
    congrArg Prod.snd hemit
  have htold := h.toTold.utter (e := e) ht w.recorder.clock
  by_cases hr : room = some 0
  · subst hr
    obtain ⟨⟨err, herr⟩, hc⟩ := h.captures.record_refused k (w.tagOf t).1 name
    obtain rfl : taken = false := by rw [← hk, h₁, herr]; rfl
    refine ⟨es, some 0, h₂ ▸ hc, htold.told, htold.tagged, ?_, fun _ _ _ => rfl⟩
    exact List.pairwise_append.mpr ⟨h.closing, List.pairwise_singleton ..,
      fun d' _ x hx _ => List.mem_singleton.mp hx ▸ ht⟩
  · obtain ⟨hok, hc⟩ := h.captures.record_taken hr k (w.tagOf t).1 name
    obtain rfl : taken = true := by rw [← hk, h₁, hok]; rfl
    refine ⟨_, _, h₂ ▸ hc, htold.told, htold.tagged, ?_, fun x hx hxl => ?_⟩
    · exact List.pairwise_append.mpr ⟨h.closing, List.pairwise_singleton ..,
        fun d' hd' _ _ hl' => absurd (h.lost d' hd' hl') hr⟩
    · rcases List.mem_append.mp hx with hx | hx
      · exact absurd (h.lost x hx hxl) hr
      · rw [List.mem_singleton.mp hx, hl] at hxl
        contradiction

/-- A stage that makes a record makes it for the emitter that all calls go through. -/
theorem Agrees.emitter {R : Type} {w : World V R} {b : Book} (h : Agrees e home w b) {k : Kind}
    {g : Guard} (hu : (w.thread t).stage.utters = some (k, g)) : g.emitter = e := by
  have hfit := h.fits t
  have carried (hg : g ∈ (w.thread t).stage.view.carried) : g.Traced e home :=
    hfit.traced g (List.mem_append_left _ (List.mem_append_right _ hg))
  have wanted (hg : g ∈ (w.thread t).stage.view.wanted) : g.Traced e home :=
    hfit.traced g (List.mem_append_right _ hg)
  have borrowed (hg : g ∈ (w.thread t).stage.view.borrowed) : g.Traced e home :=
    hfit.traced g (List.mem_append_left _ (List.mem_append_left _ (hfit.borrowed g hg)))
  have veiled (hg : g ∈ (w.thread t).stage.view.veiled) : g.Traced e home :=
    hfit.traced_of_mem (List.mem_append_left _ hg)
  cases hs : (w.thread t).stage
  all_goals
    rw [hs] at hu carried wanted borrowed veiled
    cases hu
  case attempting | refusing => exact (wanted (List.mem_singleton_self g)).1
  case recording | leaving => exact (carried (List.mem_singleton_self g)).1
  case waiting => exact (borrowed (List.mem_singleton_self g)).1
  case waking => exact (veiled (List.mem_singleton_self g)).1

/-- The deed of a stage that makes a record. -/
theorem exists_deed?_of_utters {R : Type} [Recorder R] {w : World V R} {k : Kind} {g : Guard}
    (w' : World V R) (hu : (w.thread t).stage.utters = some (k, g)) : ∃ d, w.deed? t w' = some d ∧
      (d.told? = if w.taken t k g then some (t, k, g.name) else none) ∧
      (d.Lost ↔ w.taken t k g = false) := by
  by_cases hk : k = .attempt
  · subst hk
    refine ⟨.attempt t g.name (((w.thread t).kept.map (·.name)).contains g.name)
      (w.taken t .attempt g), by rw [deed?, hu], ?_, Iff.rfl⟩
    cases w.taken t .attempt g <;> rfl
  · refine ⟨.record t k g.name (w.taken t k g), deed?_of_utters hu hk, ?_, Iff.rfl⟩
    cases w.taken t k g <;> rfl

/-- Other stages do nothing that the stream could tell. -/
theorem untold_of_utters {R : Type} [Recorder R] {w w' : World V R}
    (hu : (w.thread t).stage.utters = none) {d : Deed} (hd : w.deed? t w' = some d) :
    d.told? = none ∧ ¬ d.Lost := by
  rw [deed?, hu] at hd
  split at hd
  · contradiction
  · contradiction
  · split at hd
    · cases hd
      exact ⟨rfl, id⟩
    · cases hd
      exact ⟨rfl, id⟩
    · contradiction

theorem Streams.advance (h : Streams e o w ds es room) {b : Book} (hb : Agrees e home w b)
    {pick : List Waiter → Option Waiter} (ha : w.advance t pick = some w') :
    ∃ es room, Streams e o w' (ds ++ (w.deed? t w').toList) es room := by
  rcases (step_of_advance ha).outer (hb.traced t) with ⟨k, g, hu, ho⟩ | ⟨hu, ho⟩
  · obtain ⟨d, hd, ht, hl⟩ := exists_deed?_of_utters w' hu
    obtain ⟨es', room', h'⟩ := h.utter (hb.emitter hu ▸ rfl) ht hl
    rw [hd]
    exact ⟨es', room', h'.of_outer (hb.emitter hu ▸ ho)⟩
  · have h' : Streams e o w' ds es room := by
      rcases ho with ho | ho
      · exact h.of_outer ho
      · exact (h.tagOf t).of_outer ho
    cases hd : w.deed? t w' with
    | none =>
      rw [Option.toList_none, List.append_nil]
      exact ⟨es, room, h'⟩
    | some d => exact ⟨es, room, h'.untold (untold_of_utters hu hd).1 (untold_of_utters hu hd).2⟩

theorem outer_begin {R : Type} {w w' : World V R} {call : Call V}
    (hb : w.begin t call = some w') : w'.outer = w.outer := by
  unfold begin at hb
  split at hb
  · obtain ⟨s, _, rfl⟩ := Option.map_eq_some_iff.mp hb
    cases call
    all_goals simp
  · contradiction

theorem outer_rouse {R : Type} {w w' : World V R} (hr : w.rouse t = some w') :
    w'.outer = w.outer := by
  unfold rouse at hr
  split at hr
  · cases hr
    simp
  · contradiction

theorem outer_collect {R : Type} {w w' : World V R} {a : Answer V}
    (hc : w.collect t = some (a, w')) : w'.outer = w.outer := by
  unfold collect at hc
  split at hc
  · cases hc
    simp
  · contradiction

/-- At every moment of a run of traced calls the outlet shows just the records that were taken. -/
theorem Run.exists_streams (h₀ : w₀.Fresh) (hc : w₀.recorder.Captures e o [] room)
    (h : Run (Call.Traced e home) Desk.Ticks w₀ ds w) :
    ∃ es room, Streams e o w ds es room := by
  induction h with
  | start =>
    have htold : w₀.Told [] [] := .start fun t => by rw [h₀.threads t]
    exact ⟨[], room, hc, htold.told, htold.tagged, .nil, by simp⟩
  | begin t call _ _ hb ih =>
    obtain ⟨es, room, hs⟩ := ih
    exact ⟨es, room, hs.of_outer (outer_begin hb)⟩
  | advance t pick hrun ha ih =>
    obtain ⟨es, room, hs⟩ := ih
    obtain ⟨b, _, hb⟩ := hrun.exists_course h₀
    exact hs.advance hb ha
  | rouse t _ hr ih =>
    obtain ⟨es, room, hs⟩ := ih
    exact ⟨es, room, hs.of_outer (outer_rouse hr)⟩
  | collect t a _ hc ih =>
    obtain ⟨es, room, hs⟩ := ih
    exact ⟨es, room, hs.of_outer (outer_collect hc)⟩
  | drift r _ hd ih =>
    obtain ⟨es, room, hs⟩ := ih
    exact ⟨es, room, hs.captures.tick hd, hs.told, ⟨hs.tagged.le, hs.tagged.unique⟩, hs.closing,
      hs.lost⟩

end World

end LockTrace
