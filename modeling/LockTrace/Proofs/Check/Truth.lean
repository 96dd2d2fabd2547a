import LockTrace.Proofs.Check.Stream
import LockTrace.Proofs.Sink.Whole
import LockTrace.Proofs.Threads.Truth

namespace LockTrace

/-- The kinds and locks of one thread's events, in the order of the stream. -/
def recordsOf (tid : String) (es : List Event) : List (Kind × LockName) :=
  (es.filter (·.tid = tid)).map fun e => (e.kind, e.lock)

theorem recordsOf_append (tid : String) (es es' : List Event) :
    recordsOf tid (es ++ es') = recordsOf tid es ++ recordsOf tid es' := by
  rw [recordsOf, List.filter_append, List.map_append]
  rfl

namespace World

variable {V : Type} {e : EmitterId} {o : Outlet} {w₀ w w' : World V Desk} {ds : List Deed}
  {es : List Event} {t : ThreadId}

/-- A thread's part of the stream is its part of what was told. -/
theorem recordsOf_title (hw : w.Tagged) {rs : List (ThreadId × Kind × LockName)}
    (h : List.Forall₂ w.Tells rs es) (t : ThreadId) :
    recordsOf (w.title t) es = rs.filterMap (own? t) := by
  induction h with
  | nil => rfl
  | @cons r ev _ _ hr _ ih =>
    have ht := title_of_tells hr
    rw [← List.singleton_append, recordsOf_append, ih, List.filterMap_cons, own?]
    by_cases he : r.1 = t
    · have hev : ev.tid = w.title t := by rw [← ht, he]
      simp [recordsOf, hev, he, hr.1, hr.2.1]
    · have hev : ev.tid ≠ w.title t := fun h => he (hw.title_injective (ht.trans h))
      simp [recordsOf, hev, he]

/-- Whoever is named in the stream is a thread. -/
theorem recordsOf_eq_nil {rs : List (ThreadId × Kind × LockName)}
    (h : List.Forall₂ w.Tells rs es) {tid : String} (ht : ∀ t, w.title t ≠ tid) :
    recordsOf tid es = [] := by
  induction h with
  | nil => rfl
  | @cons r ev _ _ hr _ ih =>
    have hev : ev.tid ≠ tid := fun h => ht r.1 ((title_of_tells hr).trans h)
    rw [← List.singleton_append, recordsOf_append, ih]
    simp [recordsOf, hev]

/-- The outlet of an emitter shows just the records that were taken, however many others are
refused in between. -/
structure Shows (e : EmitterId) (o : Outlet) (w : World V Desk) (ds : List Deed)
    (es : List Event) : Prop extends w.Told ds es where
  collects : w.recorder.Collects e o es

theorem Shows.of_outer (h : Shows e o w ds es) (ho : w'.outer = w.outer) : Shows e o w' ds es where
  toTold := h.toTold.of_outer ho
  collects := by
    have hr : w'.recorder = w.recorder := congrArg (·.1) ho
    rw [hr]
    exact h.collects

theorem Shows.tagOf (h : Shows e o w ds es) (t : ThreadId) : Shows e o (w.tagOf t).2 ds es where
  toTold := h.toTold.tagOf t
  collects := by
    rw [recorder_tagOf]
    exact h.collects

theorem Shows.utter (h : Shows e o w ds es) {d : Deed} {k : Kind} {name : LockName}
    (hd : d.told? = if (w.emit t e k name).1.isOk then some (t, k, name) else none) :
    ∃ es, Shows e o (w.emit t e k name).2 (ds ++ [d]) es := by
  have hc := h.collects.record k (w.tagOf t).1 name
  have hemit := emit_eq w t e k name
  have hok : (w.emit t e k name).1 = (w.recorder.record e k (w.tagOf t).1 name).1 :=
    congrArg Prod.fst hemit
  have hrec : (w.emit t e k name).2.recorder = (w.recorder.record e k (w.tagOf t).1 name).2 :=
    congrArg Prod.snd hemit
  rw [← hok, ← hrec] at hc
  exact ⟨_, h.toTold.utter hd w.recorder.clock, hc⟩

theorem Shows.advance (h : Shows e o w ds es) (hw : Candid e (w.thread t) (own Deed.told? t ds))
    {pick : List Waiter → Option Waiter} (ha : w.advance t pick = some w') :
    ∃ es, Shows e o w' (ds ++ (w.deed? t w').toList) es := by
  rcases (step_of_advance ha).outer hw.traced with ⟨k, g, hu, ho⟩ | ⟨hu, ho⟩
  · obtain rfl : g.emitter = e := by
      apply hw.emitter
      rw [(Stage.guards_of_utters hu).1]
      exact List.mem_singleton_self g
    obtain ⟨d, hd, ht, _⟩ := exists_deed?_of_utters w' hu
    obtain ⟨es', h'⟩ := h.utter ht
    rw [hd]
    exact ⟨es', h'.of_outer ho⟩
  · have h' : Shows e o w' ds es := by
      rcases ho with ho | ho
      · exact h.of_outer ho
      · exact (h.tagOf t).of_outer ho
    cases hd : w.deed? t w' with
    | none =>
      rw [Option.toList_none, List.append_nil]
      exact ⟨es, h'⟩
    | some d => exact ⟨es, h'.toTold.untold (untold_of_utters hu hd).1, h'.collects⟩

/-- At every moment of a run the outlet shows just the records that were taken. -/
theorem Run.exists_shows (h₀ : w₀.Fresh) (hc : w₀.recorder.Collects e o [])
    (h : Run (Call.Through e) (Desk.Wavers e) w₀ ds w) : ∃ es, Shows e o w ds es := by
  induction h with
  | start => exact ⟨[], .start fun t => by rw [h₀.threads t], hc⟩
  | begin t call _ _ hb ih =>
    obtain ⟨es, hs⟩ := ih
    exact ⟨es, hs.of_outer (outer_begin hb)⟩
  | advance t pick hrun ha ih =>
    obtain ⟨es, hs⟩ := ih
    exact hs.advance (hrun.candid h₀ t) ha
  | rouse t _ hr ih =>
    obtain ⟨es, hs⟩ := ih
    exact ⟨es, hs.of_outer (outer_rouse hr)⟩
  | collect t a _ hc ih =>
    obtain ⟨es, hs⟩ := ih
    exact ⟨es, hs.of_outer (outer_collect hc)⟩
  | drift r _ hd ih =>
    obtain ⟨es, hs⟩ := ih
    exact ⟨es, hs.toTold.frame (fun _ => rfl) rfl, hs.collects.waver hd⟩

/-- At every moment of a run, whichever records the sink has taken and whichever it has refused,
each prefix of the stream is truthful about every thread. -/
theorem truthful_stream (h₀ : w₀.Fresh) (hc : w₀.recorder.Collects e o [])
    (h : Run (Call.Through e) (Desk.Wavers e) w₀ ds w) :
    ∃ es, Check.events? (w.recorder.bytes o) = some es ∧
      ∀ pre, pre <+: es → ∀ tid, Truthful (recordsOf tid pre) := by
  obtain ⟨es, hs⟩ := h.exists_shows h₀ hc
  refine ⟨es, ?_, fun pre hp tid => ?_⟩
  · rw [hs.collects.bytes]
    exact Check.events?_bytes es
  · have hp' : recordsOf tid pre <+: recordsOf tid es := (hp.filter _).map _
    by_cases ht : ∃ t, w.title t = tid
    · obtain ⟨t, rfl⟩ := ht
      rw [recordsOf_title hs.tagged hs.told] at hp'
      exact (h.candid h₀ t).truthful _ hp'
    · rw [recordsOf_eq_nil hs.told fun t h => ht ⟨t, h⟩, List.prefix_nil] at hp'
      rw [hp']
      exact truthful_nil

/-- An output that refuses the second record, and takes all others. -/
def flawedOutput : Faulty :=
  { flaw := .failWrite, after := 1, times := some 1, error := .nothingWritten }

/-- A world in which nothing has happened yet, and all records go to that output. -/
def flawed : World Unit Desk :=
  { mutexes := ⟨{ value := () }, []⟩
    recorder := { sinks := ⟨.writer ⟨"b", flawedOutput⟩, []⟩ } }

/-- The first acquisition cannot be recorded. The second can, and while the mutex is held another
thread acquires another mutex of the same name. -/
def oneLost : List (ThreadId × Happening Unit) :=
  [(0, .begin (.lock .waits 0 0 "J" 0)), (0, .advance), (0, .advance), (0, .advance),
    (0, .advance), (0, .collect), (0, .begin (.lock .waits 0 0 "J" 0)), (0, .advance),
    (0, .advance), (0, .advance), (0, .collect), (1, .begin (.lock .waits 0 1 "J" 0)),
    (1, .advance), (1, .advance), (1, .advance), (0, .begin (.leave .dropped 0)), (0, .advance)]

def oneLostDeeds : List Deed :=
  [.attempt 0 nameJ false true, .record 0 .acquired nameJ false, .attempt 0 nameJ false true,
    .record 0 .acquired nameJ true, .attempt 1 nameJ false true, .record 1 .acquired nameJ true,
    .record 0 .released nameJ true]

theorem truthful_stream_oneLost : ∃ w es, flawed.Fresh ∧
    flawed.recorder.Collects 0 (.named "b") [] ∧
    Run (Call.Through 0) (Desk.Wavers 0) flawed oneLostDeeds w ∧
    Check.events? (w.recorder.bytes (.named "b")) = some es ∧
    ∀ pre, pre <+: es → ∀ tid, Truthful (recordsOf tid pre) := by
  have h₀ : flawed.Fresh := ⟨fun _ => rfl, fun _ => rfl⟩
  have hc : flawed.recorder.Collects 0 (.named "b") [] := ⟨rfl, Sink.whole_failWrite rfl, rfl⟩
  obtain ⟨w, h⟩ : ∃ w, Run (Call.Through 0) (Desk.Wavers 0) flawed oneLostDeeds w := by
    apply exists_run_of_play oneLost (by decide +kernel)
    simp [oneLost, Call.Through]
  obtain ⟨es, hes, hpre⟩ := truthful_stream h₀ hc h
  exact ⟨w, es, h₀, hc, h, hes, hpre⟩

end World

end LockTrace
