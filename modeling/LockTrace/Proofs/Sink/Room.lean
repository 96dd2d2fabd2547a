import LockTrace.Proofs.Text.Utf8
import LockTrace.Sink.Desk
import Mathlib.Tactic.Common

namespace LockTrace

/-- A record as bytes of the stream. -/
def Event.bytes (e : Event) : List UInt8 := Text.Utf8.encode (Record.encode e).toList

theorem Event.bytes_eq (e : Event) :
    e.bytes = Text.Utf8.encode (Record.body e) ++ Text.Utf8.encode ['\n'] := by
  rw [Event.bytes, Record.encode, String.toList_ofList, Text.Utf8.encode_append]

theorem Event.bytes_ne_nil (e : Event) : e.bytes ≠ [] := by
  rw [Event.bytes_eq]
  intro h
  have := (List.append_eq_nil_iff.mp h).2
  contradiction

/-- The bytes among what arrived. -/
def Chunk.content (cs : List Chunk) : List UInt8 := cs.flatMap fun
  | .bytes b => b
  | .flushed => []

@[simp] theorem Chunk.content_nil : content [] = [] := rfl

@[simp] theorem Chunk.content_whole (bs : List UInt8) : content [.bytes bs, .flushed] = bs :=
  List.append_nil bs

theorem Chunk.content_append (cs cs' : List Chunk) :
    content (cs ++ cs') = content cs ++ content cs' := List.flatMap_append

namespace Sink

variable {W : Type} [Writer W]

/-- What becomes of a sink that is offered records. -/
def after (s : Sink W) (offered : List Event) : Sink W :=
  offered.foldl (fun s e => (s.put e.bytes).after) s

theorem after_concat (s : Sink W) (offered : List Event) (e : Event) :
    s.after (offered ++ [e]) = ((s.after offered).put e.bytes).after := by
  rw [after, List.foldl_append]
  rfl

/-- A sink that takes so many records, or all where no number is given. It takes them whole, and of
those that it refuses nothing arrives. -/
structure HasRoom (s : Sink W) (room : Option Nat) : Prop where
  takes : ∀ offered (e : Event), (∀ n ∈ room, offered.length < n) →
    ((s.after offered).put e.bytes).result = .ok () ∧
      Chunk.content ((s.after offered).put e.bytes).chunks = e.bytes
  refuses : ∀ offered (e : Event), ∀ n ∈ room, n ≤ offered.length →
    (∃ cause, ((s.after offered).put e.bytes).result = .error cause) ∧
      Chunk.content ((s.after offered).put e.bytes).chunks = []

/-- One record fewer has room in a sink that was offered one. -/
theorem HasRoom.next {s : Sink W} {room : Option Nat} (h : s.HasRoom room) (e : Event) :
    (s.put e.bytes).after.HasRoom (room.map (· - 1)) where
  takes offered e' hn := by
    refine h.takes (e :: offered) e' fun n hr => ?_
    have := hn (n - 1) (by simp [Option.mem_def.mp hr])
    simp only [List.length_cons]
    omega
  refuses offered e' n hr hn := by
    obtain ⟨m, hm, rfl⟩ := Option.map_eq_some_iff.mp hr
    refine h.refuses (e :: offered) e' m hm ?_
    simp only [List.length_cons]
    omega

/-- A sink has room if what is true of it, and stays true with every record, says what becomes of
the next one. -/
theorem HasRoom.of_step {P : Sink W → Option Nat → Prop}
    (takes : ∀ s room (e : Event), P s room → room ≠ some 0 →
      (s.put e.bytes).result = .ok () ∧ Chunk.content (s.put e.bytes).chunks = e.bytes)
    (refuses : ∀ s (e : Event), P s (some 0) →
      (∃ cause, (s.put e.bytes).result = .error cause) ∧ Chunk.content (s.put e.bytes).chunks = [])
    (step : ∀ s room (e : Event), P s room → P (s.put e.bytes).after (room.map (· - 1)))
    {s : Sink W} {room : Option Nat} (h : P s room) : s.HasRoom room := by
  have reach (offered : List Event) : P (s.after offered) (room.map (· - offered.length)) := by
    induction offered generalizing s room with
    | nil => simpa [after] using h
    | cons e offered ih =>
      have hroom : (room.map (· - 1)).map (· - offered.length) =
          room.map (· - (e :: offered).length) := by
        rw [Option.map_map]
        congr 1
        funext n
        simp only [Function.comp_apply, List.length_cons]
        omega
      rw [← hroom]
      exact ih (step s room e h)
  constructor
  · intro offered e hn
    refine takes _ _ e (reach offered) fun h0 => ?_
    obtain ⟨n, hr, hz⟩ := Option.map_eq_some_iff.mp h0
    have := hn n hr
    omega
  · intro offered e n hr hn
    refine refuses _ e ?_
    have := reach offered
    rw [Option.mem_def.mp hr, Option.map_some, Nat.sub_eq_zero_of_le hn] at this
    exact this

theorem hasRoom_stdout : (Sink.stdout : Sink W).HasRoom none := by
  refine HasRoom.of_step (P := fun s room => s = .stdout ∧ room = none) ?_ ?_ ?_ ⟨rfl, rfl⟩
  · rintro _ _ e ⟨rfl, rfl⟩ _
    exact ⟨rfl, Chunk.content_whole e.bytes⟩
  · rintro _ e ⟨_, h⟩
    contradiction
  · rintro _ _ e ⟨rfl, rfl⟩
    exact ⟨rfl, rfl⟩

section Writing

variable {w w' w₁ : W} {bs : List UInt8} {cause : IoError}

theorem writeRecord_of_taken (hne : bs ≠ [])
    (hw : Writer.write w bs.length = (.accepted bs.length, w₁))
    (hf : Writer.flush w₁ = (.ok (), w')) :
    writeRecord w bs = ⟨.ok (), [.bytes bs, .flushed], w'⟩ := by
  cases bs with
  | nil => contradiction
  | cons b bs =>
    have hall : writeAll w (b :: bs) = ⟨.ok (), [.bytes (b :: bs)], w₁⟩ := by
      rw [writeAll, show bs.length + 1 = (b :: bs).length from rfl, hw]
      simp [writeAll]
    rw [writeRecord, hall]
    simp only [hf, List.singleton_append]

theorem writeRecord_of_refused (hne : bs ≠ [])
    (hw : Writer.write w bs.length = (.failed cause, w')) :
    writeRecord w bs = ⟨.error cause, [], w'⟩ := by
  cases bs with
  | nil => contradiction
  | cons b bs =>
    have hall : writeAll w (b :: bs) = ⟨.error cause, [], w'⟩ := by
      rw [writeAll, show bs.length + 1 = (b :: bs).length from rfl, hw]
    rw [writeRecord, hall]

end Writing

section Closing

variable {name : String} {f : Faulty}

theorem put_before (hf : f.flaw = .failWrite) (hd : f.done < f.after) (e : Event) :
    (Sink.writer (⟨name, f⟩ : Labelled)).put e.bytes = ⟨.ok (), [.bytes e.bytes, .flushed],
      .writer ⟨name, { f with done := f.done + 1 }⟩⟩ := by
  have hn : f.failing = false := by
    rw [Faulty.failing, decide_eq_false (Nat.not_le.mpr hd), Bool.false_and]
  have hw : Writer.write (⟨name, f⟩ : Labelled) e.bytes.length =
      (.accepted e.bytes.length, ⟨name, f⟩) := by
    simp [Writer.write, Faulty.write, hf, hn]
  have hflush : Writer.flush (⟨name, f⟩ : Labelled) =
      (.ok (), ⟨name, { f with done := f.done + 1 }⟩) := by
    simp [Writer.flush, Faulty.flush, hf]
  rw [put, writeRecord_of_taken e.bytes_ne_nil hw hflush]

theorem put_after (hf : f.flaw = .failWrite) (ht : f.times = none) (hd : f.after ≤ f.done)
    (e : Event) :
    (Sink.writer (⟨name, f⟩ : Labelled)).put e.bytes =
      ⟨.error f.error, [], .writer ⟨name, f⟩⟩ := by
  have hn : f.failing = true := by simp [Faulty.failing, hd, ht]
  have hs : f.spend = f := by
    cases f
    cases ht
    rfl
  have hw : Writer.write (⟨name, f⟩ : Labelled) e.bytes.length = (.failed f.error, ⟨name, f⟩) := by
    simp [Writer.write, Faulty.write, hf, hn, Faulty.refuse, ht, hs]
  rw [put, writeRecord_of_refused e.bytes_ne_nil hw]

/-- An output that fails for ever from some record on has room for those before it. -/
theorem hasRoom_failWrite (hf : f.flaw = .failWrite) (ht : f.times = none) :
    (Sink.writer (⟨name, f⟩ : Labelled)).HasRoom (some (f.after - f.done)) := by
  refine HasRoom.of_step (P := fun s room => ∃ f : Faulty, s = .writer (⟨name, f⟩ : Labelled) ∧
    f.flaw = .failWrite ∧ f.times = none ∧ room = some (f.after - f.done)) ?_ ?_ ?_
    ⟨f, rfl, hf, ht, rfl⟩
  · rintro _ _ e ⟨f, rfl, hf, _, rfl⟩ hroom
    rw [put_before hf (by simpa [Nat.sub_ne_zero_iff_lt] using hroom)]
    exact ⟨rfl, Chunk.content_whole e.bytes⟩
  · rintro _ e ⟨f, rfl, hf, ht, hroom⟩
    rw [put_after hf ht (Nat.sub_eq_zero_iff_le.mp (Option.some_inj.mp hroom).symm)]
    exact ⟨⟨f.error, rfl⟩, rfl⟩
  · rintro _ _ e ⟨f, rfl, hf, ht, rfl⟩
    rcases Nat.lt_or_ge f.done f.after with hd | hd
    · rw [put_before hf hd]
      exact ⟨_, rfl, hf, ht, rfl⟩
    · rw [put_after hf ht hd]
      exact ⟨f, rfl, hf, ht, by rw [Option.map_some, Nat.sub_eq_zero_of_le hd]⟩

end Closing

section Outlet

theorem name_writeAll (w : Labelled) (bs : List UInt8) : (writeAll w bs).after.name = w.name := by
  fun_induction writeAll w bs with
  | case1 => rfl
  | case2 w b bs e w' hw => exact congrArg (·.2.name) hw.symm
  | case3 w b bs w' hw => exact congrArg (·.2.name) hw.symm
  | case4 w b bs n w' hw r ih => exact ih.trans (congrArg (·.2.name) hw.symm)

theorem name_writeRecord (w : Labelled) (bs : List UInt8) :
    (writeRecord w bs).after.name = w.name := by
  have hflush (w : Labelled) : (Writer.flush w).2.name = w.name := rfl
  rw [writeRecord]
  split
  · exact name_writeAll w bs
  · split
    all_goals
      rename_i hw
      exact (congrArg (·.2.name) hw).symm.trans ((hflush _).trans (name_writeAll w bs))

@[simp] theorem outlet?_put (s : Sink Labelled) (bs : List UInt8) :
    (s.put bs).after.outlet? = s.outlet? := by
  cases s with
  | writer w => exact congrArg (some <| Outlet.named ·) (name_writeRecord w bs)
  | stdout | stderr | discard => rfl

end Outlet

end Sink

namespace Desk

/-- The records of an emitter are seen at an outlet where only they arrive, and its sink has room
for some more. -/
structure Captures (d : Desk) (e : EmitterId) (o : Outlet) (es : List Event)
    (room : Option Nat) : Prop where
  outlet : (d.sinks.get e).outlet? = some o
  room : (d.sinks.get e).HasRoom room
  bytes : d.bytes o = es.flatMap Event.bytes

theorem bytes_eq (d : Desk) (o : Outlet) :
    d.bytes o = Chunk.content (d.arrived.get o).reverse := rfl

theorem bytes_deliver {d : Desk} {s : Sink Labelled} {o : Outlet} (h : s.outlet? = some o)
    (cs : List Chunk) : (d.deliver s cs).bytes o = d.bytes o ++ Chunk.content cs := by
  unfold deliver
  rw [h]
  cases cs with
  | nil => simp
  | cons c cs =>
    simp only [List.isEmpty_cons, Bool.false_eq_true, if_false]
    rw [bytes_eq, bytes_eq, Table.get_set_self, List.reverse_append, List.reverse_reverse,
      Chunk.content_append]

theorem sinks_deliver (d : Desk) (s : Sink Labelled) (cs : List Chunk) :
    (d.deliver s cs).sinks = d.sinks := by
  unfold deliver
  split
  · rfl
  · split <;> rfl

theorem clock_deliver (d : Desk) (s : Sink Labelled) (cs : List Chunk) :
    (d.deliver s cs).clock = d.clock := by
  unfold deliver
  split
  · rfl
  · split <;> rfl

variable {d d' : Desk} {e : EmitterId} {o : Outlet} {es : List Event} {room : Option Nat}

section Record

variable (d) (e) (k : Kind) (tid : String) (lock : LockName)

theorem isOk_record : (d.record e k tid lock).1.isOk =
    ((d.sinks.get e).put (Event.bytes ⟨k, d.clock, tid, lock⟩)).result.isOk := by
  have hmap (r : Except IoError Unit) : (r.mapError TraceError.sink).isOk = r.isOk := by
    cases r <;> rfl
  exact hmap _

theorem sinks_record (e' : EmitterId) : (d.record e k tid lock).2.sinks.get e' = if e = e' then
    ((d.sinks.get e).put (Event.bytes ⟨k, d.clock, tid, lock⟩)).after else d.sinks.get e' := by
  change Table.get (deliver _ _ _).sinks e' = _
  rw [sinks_deliver]
  exact Table.get_set ..

theorem sink_record : (d.record e k tid lock).2.sinks.get e =
    ((d.sinks.get e).put (Event.bytes ⟨k, d.clock, tid, lock⟩)).after := by
  rw [sinks_record, if_pos rfl]

theorem outlet?_record :
    ((d.record e k tid lock).2.sinks.get e).outlet? = (d.sinks.get e).outlet? := by
  rw [sink_record]
  exact Sink.outlet?_put ..

/-- What a record does to an outlet is what its sink does. -/
theorem bytes_record (h : (d.sinks.get e).outlet? = some o) : (d.record e k tid lock).2.bytes o =
    d.bytes o ++ Chunk.content
      ((d.sinks.get e).put (Event.bytes ⟨k, d.clock, tid, lock⟩)).chunks := bytes_deliver h _

end Record

/-- While there is room a record is taken. -/
theorem Captures.record_taken (h : d.Captures e o es room) (hr : room ≠ some 0) (k : Kind)
    (tid : String) (lock : LockName) :
    (d.record e k tid lock).1 = .ok () ∧
      (d.record e k tid lock).2.Captures e o (es ++ [⟨k, d.clock, tid, lock⟩])
        (room.map (· - 1)) := by
  have ht := h.room.takes [] ⟨k, d.clock, tid, lock⟩ fun n hn =>
    Nat.pos_of_ne_zero fun h0 => hr (h0 ▸ hn)
  refine ⟨congrArg (Except.mapError TraceError.sink) ht.1, ?_, ?_, ?_⟩
  · exact (outlet?_record d e k tid lock).trans h.outlet
  · rw [sink_record]
    exact h.room.next _
  · have hc : Chunk.content ((d.sinks.get e).put (Event.bytes ⟨k, d.clock, tid, lock⟩)).chunks =
        Event.bytes ⟨k, d.clock, tid, lock⟩ := ht.2
    rw [bytes_record d e k tid lock h.outlet, hc, h.bytes, List.flatMap_append,
      List.flatMap_singleton]

/-- Afterwards every record is refused, and nothing of it is seen. -/
theorem Captures.record_refused (h : d.Captures e o es (some 0)) (k : Kind) (tid : String)
    (lock : LockName) :
    (∃ err, (d.record e k tid lock).1 = .error err) ∧
      (d.record e k tid lock).2.Captures e o es (some 0) := by
  obtain ⟨⟨cause, hc⟩, hn⟩ := h.room.refuses [] ⟨k, d.clock, tid, lock⟩ 0 rfl (Nat.zero_le 0)
  refine ⟨⟨.sink cause, congrArg (Except.mapError TraceError.sink) hc⟩, ?_, ?_, ?_⟩
  · exact (outlet?_record d e k tid lock).trans h.outlet
  · rw [sink_record]
    exact h.room.next _
  · have hn' : Chunk.content ((d.sinks.get e).put (Event.bytes ⟨k, d.clock, tid, lock⟩)).chunks =
        [] := hn
    rw [bytes_record d e k tid lock h.outlet, hn', List.append_nil, h.bytes]

/-- The clock has gone on, and nothing else has happened. -/
def Ticks (d d' : Desk) : Prop := ∃ clock, d' = { d with clock }

theorem Captures.tick (h : d.Captures e o es room) (hd : d.Ticks d') :
    d'.Captures e o es room := by
  obtain ⟨clock, rfl⟩ := hd
  exact ⟨h.outlet, h.room, h.bytes⟩

end Desk

end LockTrace
