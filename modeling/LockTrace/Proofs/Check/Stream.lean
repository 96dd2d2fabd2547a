import LockTrace.Check.Stream
import LockTrace.Proofs.Record.Cut
import LockTrace.Proofs.Threads.Stream

namespace LockTrace

/-- What an event says, the time aside. -/
def Event.gist (e : Event) : Kind × String × LockName := (e.kind, e.tid, e.lock)

/-- What the record of a deed says, the time aside, if there is one and threads have these tags. -/
def Deed.gist? (title : ThreadId → String) (d : Deed) : Option (Kind × String × LockName) :=
  d.told?.map fun (t, k, name) => (k, title t, name)

namespace Check

theorem linesFrom_append (line : List Char) {cs : List Char} (h : '\n' ∉ cs) (rest : List Char) :
    linesFrom line (cs ++ '\n' :: rest) =
      String.ofList (line.reverse ++ cs) :: linesFrom [] rest := by
  induction cs generalizing line with
  | nil => simp [linesFrom]
  | cons c cs ih =>
    obtain ⟨hc, hcs⟩ := not_or.mp (mt List.mem_cons.mpr h)
    rw [List.cons_append, linesFrom, if_neg (Ne.symm hc), ih _ hcs]
    simp

theorem lines_stream (es : List Event) :
    lines (Record.stream es) = es.map fun e => String.ofList (Record.body e) := by
  induction es with
  | nil => rfl
  | cons e es ih =>
    have hs : Record.stream (e :: es) = Record.body e ++ '\n' :: Record.stream es := by
      rw [Record.stream, List.flatMap_cons, List.append_assoc, List.singleton_append]
      rfl
    rw [hs, lines, linesFrom_append [] (Record.newline_not_mem_body e), ← lines, ih]
    rfl

/-- The events of a stream of records are those that were written. -/
theorem events?_bytes (es : List Event) : events? (es.flatMap Event.bytes) = some es := by
  have hb : es.flatMap Event.bytes = Text.Utf8.encode (Record.stream es) := by
    induction es with
    | nil => rfl
    | cons e es ih =>
      rw [List.flatMap_cons, ih, Event.bytes_eq, Record.stream, Record.stream, List.flatMap_cons,
        Text.Utf8.encode_append, Text.Utf8.encode_append]
  have hd : (fun l => (Record.decode l).toOption) ∘ (fun e => String.ofList (Record.body e)) =
      fun e => pure e := by
    funext e
    rw [Function.comp_apply, Record.decode_body]
    rfl
  rw [events?, hb, Text.Utf8.decode?_encode, Option.bind_some, lines_stream, List.mapM_map, hd,
    List.mapM_pure, List.map_id']
  rfl

end Check

namespace World

open Book (Course)

variable {V : Type} {e : EmitterId} {home : LockName → MutexId} {o : Outlet}
  {w₀ w : World V Desk} {ds : List Deed} {es : List Event} {room : Option Nat}

theorem gist_of_tells {R : Type} {w : World V R} {rs : List (ThreadId × Kind × LockName)}
    (h : List.Forall₂ w.Tells rs es) :
    es.map Event.gist = rs.map fun (t, k, name) => (k, w.title t, name) := by
  induction h with
  | nil => rfl
  | @cons r ev _ _ hr _ ih =>
    have ht := title_of_tells hr
    rw [List.map_cons, List.map_cons, ih]
    simp only [Event.gist, hr.1, hr.2.1, ht]

theorem Streams.gist (h : Streams e o w ds es room) :
    es.map Event.gist = ds.filterMap (Deed.gist? w.title) := by
  rw [gist_of_tells h.told, List.map_filterMap]
  rfl

/-- At every moment of a run of traced calls the outlet shows, in order, what the threads did until
the first record was lost. -/
theorem Run.exists_told (h₀ : w₀.Fresh) (hc : w₀.recorder.Captures e o [] room)
    (h : Run (Call.Traced e home) Desk.Ticks w₀ ds w) :
    ∃ es title xs ys b, Check.events? (w.recorder.bytes o) = some es ∧
      Function.Injective title ∧ es.map Event.gist = xs.filterMap (Deed.gist? title) ∧
      ds = xs ++ ys ∧ Course xs b ∧ (∀ d ∈ xs, ¬ d.Lost) ∧ ∀ d ∈ ys, d.told? = none := by
  obtain ⟨es, room, hs⟩ := h.exists_streams h₀ hc
  obtain ⟨b, hcourse, _⟩ := h.exists_course h₀
  obtain ⟨xs, ys, b', rfl, hx, hxs, hys⟩ := hcourse.exists_told hs.closing
  refine ⟨es, w.title, xs, ys, b', ?_, hs.tagged.title_injective, ?_, rfl, hx, hxs, hys⟩
  · rw [hs.captures.bytes]
    exact Check.events?_bytes es
  · have hnone : ys.filterMap (Deed.gist? w.title) = [] :=
      List.filterMap_eq_nil_iff.mpr fun d hd => by rw [Deed.gist?, hys d hd, Option.map_none]
    rw [hs.gist, List.filterMap_append, hnone, List.append_nil]

/-- A world in which nothing has happened yet, and all records go to the standard output. -/
def blank : World Unit Desk :=
  { mutexes := ⟨{ value := () }, []⟩, recorder := { sinks := ⟨.stdout, []⟩ } }

theorem fresh_blank : blank.Fresh := ⟨fun _ => rfl, fun _ => rfl⟩

theorem captures_blank : blank.recorder.Captures 0 .stdout [] none :=
  ⟨rfl, Sink.hasRoom_stdout, rfl⟩

/-- The second of two mutexes is called `K`, and the first is called anything else. -/
def twoNames (name : LockName) : MutexId := if name.text = "K" then 1 else 0

def nameJ : LockName := ⟨"J", by decide⟩

def nameK : LockName := ⟨"K", by decide⟩

/-- Two threads wait on one condition variable with mutexes of their own, so that the second wait
panics, and its guard is released afterwards. -/
def mixedWait : List (ThreadId × Happening Unit) :=
  [(0, .begin (.lock .waits 0 0 "J" 0)), (0, .advance), (0, .advance), (0, .advance),
    (0, .collect), (0, .begin (.wait 0 0)), (0, .advance), (0, .advance),
    (1, .begin (.lock .waits 0 1 "K" 0)), (1, .advance), (1, .advance), (1, .advance),
    (1, .collect), (1, .begin (.wait 0 0)), (1, .advance), (1, .advance), (1, .collect),
    (1, .begin (.leave .released 0)), (1, .advance)]

def mixedWaitDeeds : List Deed :=
  [.attempt 0 nameJ false true, .record 0 .acquired nameJ true, .record 0 .wait nameJ true,
    .attempt 1 nameK false true, .record 1 .acquired nameK true, .record 1 .wait nameK true,
    .broke 1 nameK, .record 1 .released nameK true]

theorem exists_mixedWait :
    ∃ w, Run (Call.Traced 0 twoNames) Desk.Ticks blank mixedWaitDeeds w := by
  apply exists_run_of_play mixedWait (by decide)
  simp [mixedWait, Call.Traced, LockName.ofString?, twoNames]

/-- Two threads and one mutex: while the first holds it the second fails to get it, then the first
sleeps, wakes by itself and lets go. -/
def sharedLock : List (ThreadId × Happening Unit) :=
  [(0, .begin (.lock .waits 0 0 "J" 0)), (0, .advance), (0, .advance), (0, .advance),
    (0, .collect), (1, .begin (.lock .tries 0 0 "J" 0)), (1, .advance), (1, .advance),
    (1, .advance), (1, .collect), (0, .begin (.wait 0 0)), (0, .advance), (0, .advance),
    (0, .rouse), (0, .advance), (0, .advance), (0, .collect),
    (0, .begin (.leave .dropped 0)), (0, .advance), (0, .advance)]

def sharedLockDeeds : List Deed :=
  [.attempt 0 nameJ false true, .record 0 .acquired nameJ true, .attempt 1 nameJ false true,
    .record 1 .tryFailed nameJ true, .record 0 .wait nameJ true, .record 0 .woken nameJ true,
    .record 0 .released nameJ true]

theorem exists_sharedLock :
    ∃ w, Run (Call.Traced 0 twoNames) Desk.Ticks blank sharedLockDeeds w := by
  apply exists_run_of_play sharedLock (by decide)
  simp [sharedLock, Call.Traced, LockName.ofString?, twoNames]

end World

end LockTrace
