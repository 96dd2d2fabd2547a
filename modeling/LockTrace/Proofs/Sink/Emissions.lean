import LockTrace.Check.Stream
import LockTrace.Proofs.Record.Cut
import LockTrace.Proofs.Sink.Room

namespace LockTrace

section Lines

theorem newline_not_mem_encode {cs : List Char} (h : '\n' ∉ cs) : 0x0a ∉ Text.Utf8.encode cs := by
  intro hm
  obtain ⟨c, hc, hb⟩ := List.mem_flatMap.mp hm
  have he : c = '\n' := Text.Utf8.eq_of_mem_encodeChar (by decide) hb
  exact h (he ▸ hc)

/-- The event that a line says, if it is a record. -/
def Record.ofLine? (line : List UInt8) : Option Event :=
  (Text.Utf8.decode? line).bind fun cs => (decode (String.ofList cs)).toOption

theorem Record.ofLine?_body (e : Event) : ofLine? (Text.Utf8.encode (body e)) = some e := by
  rw [ofLine?, Text.Utf8.decode?_encode, Option.bind_some, decode_body]
  rfl

/-- The events of the complete lines among bytes, if each of them is a record. What follows the
last line break is left out. -/
def Check.complete? (bytes : List UInt8) : Option (List Event) :=
  (bytes.splitOn 0x0a).dropLast.mapM Record.ofLine?

theorem Check.complete?_append (e : Event) (bytes : List UInt8) :
    complete? (e.bytes ++ bytes) = (complete? bytes).map (e :: ·) := by
  have hline : (0x0a : UInt8) ∉ Text.Utf8.encode (Record.body e) :=
    newline_not_mem_encode (Record.newline_not_mem_body e)
  have hb : e.bytes ++ bytes = Text.Utf8.encode (Record.body e) ++ 0x0a :: bytes := by
    rw [Event.bytes_eq, List.append_assoc]
    rfl
  have hne : bytes.splitOn 0x0a ≠ [] := List.splitOn_ne_nil _ _
  rw [complete?, hb, List.splitOn_append_cons_self_of_not_mem hline,
    List.dropLast_cons_of_ne_nil hne, List.mapM_cons, Record.ofLine?_body, ← complete?]
  cases complete? bytes <;> rfl

theorem Check.complete?_bytes (es : List Event) : complete? (es.flatMap Event.bytes) = some es := by
  induction es with
  | nil => rfl
  | cons e es ih => rw [List.flatMap_cons, complete?_append, ih, Option.map_some]

end Lines

section Writing

variable {W : Type} [Writer W] {w : W} {bs : List UInt8}

/-- Of bytes that are written some arrive from the beginning on, and if there is no failure all. -/
theorem content_writeAll (w : W) (bs : List UInt8) :
    Chunk.content (writeAll w bs).chunks <+: bs ∧
      ((writeAll w bs).result = .ok () → Chunk.content (writeAll w bs).chunks = bs) := by
  fun_induction writeAll w bs with
  | case1 => exact ⟨List.prefix_rfl, fun _ => rfl⟩
  | case2 | case3 =>
    refine ⟨List.nil_prefix, fun hr => ?_⟩
    contradiction
  | case4 w b bs n w' hw r ih =>
    have hc : Chunk.content (.bytes (b :: bs.take n) :: r.chunks) =
        b :: bs.take n ++ Chunk.content r.chunks := List.flatMap_cons
    have hb : b :: bs.take n ++ bs.drop n = b :: bs := by
      rw [List.cons_append, List.take_append_drop]
    refine ⟨?_, fun hr => ?_⟩
    · rw [hc, ← hb]
      exact (List.prefix_append_right_inj _).mpr ih.1
    · rw [hc, ih.2 hr, hb]

theorem content_writeRecord (w : W) (bs : List UInt8) :
    Chunk.content (writeRecord w bs).chunks = Chunk.content (writeAll w bs).chunks := by
  have hflushed (cs : List Chunk) : Chunk.content (cs ++ [.flushed]) = Chunk.content cs := by
    rw [Chunk.content_append]
    exact List.append_nil _
  rw [writeRecord]
  split
  · rfl
  · split
    · exact hflushed _
    · rfl

theorem writeAll_of_writeRecord (h : (writeRecord w bs).result = .ok ()) :
    (writeAll w bs).result = .ok () := by
  rw [writeRecord] at h
  split at h
  · exact h
  · assumption

/-- Nothing arrives if and only if the first call to write fails, or takes nothing. -/
theorem content_writeAll_eq_nil (hne : bs ≠ []) : Chunk.content (writeAll w bs).chunks = [] ↔
    ∀ n, (Writer.write w bs.length).1 ≠ .accepted (n + 1) := by
  cases bs with
  | nil => contradiction
  | cons b bs =>
    rw [writeAll, List.length_cons]
    split
    all_goals
      rename_i hw
      rw [hw]
    · simp
    · simp
    · simp [Chunk.content]

end Writing

/-- One call that makes a record, with the output as it is before the call. -/
structure Emission (W : Type) where
  output : W
  event : Event

namespace Emission

variable {W : Type} [Writer W]

/-- What the call comes to. -/
def written (m : Emission W) : Written (Sink W) := (Sink.writer m.output).put m.event.bytes

def succeeds (m : Emission W) : Bool := m.written.result.isOk

/-- The bytes that the call adds to the stream. -/
def content (m : Emission W) : List UInt8 := Chunk.content m.written.chunks

/-- The first call to write the record fails, or takes nothing. -/
def Rebuffed (m : Emission W) : Prop :=
  ∀ n, (Writer.write m.output m.event.bytes.length).1 ≠ .accepted (n + 1)

theorem content_eq (m : Emission W) :
    m.content = Chunk.content (writeAll m.output m.event.bytes).chunks :=
  content_writeRecord m.output m.event.bytes

/-- Whatever the output does, a success leaves the whole line. -/
theorem content_of_succeeds {m : Emission W} (h : m.succeeds) : m.content = m.event.bytes := by
  have hr : (writeRecord m.output m.event.bytes).result = .ok () := by
    change (writeRecord m.output m.event.bytes).result.isOk = true at h
    cases hw : (writeRecord m.output m.event.bytes).result with
    | ok => rfl
    | error =>
      rw [hw] at h
      contradiction
  rw [content_eq]
  exact (content_writeAll ..).2 (writeAll_of_writeRecord hr)

theorem content_eq_nil {m : Emission W} : m.content = [] ↔ m.Rebuffed := by
  rw [content_eq]
  exact content_writeAll_eq_nil m.event.bytes_ne_nil

end Emission

variable {W : Type} [Writer W]

/-- The calls for some events in order, each on what the one before has made of the output. -/
def emissions (w : W) : List Event → List (Emission W)
  | [] => []
  | e :: es => ⟨w, e⟩ :: emissions (writeRecord w e.bytes).after es

/-- The bytes that arrive at an output to which some events are handed. -/
def emitted (w : W) (es : List Event) : List UInt8 := (emissions w es).flatMap Emission.content

/-- The events that are reported as recorded. -/
def reported (w : W) (es : List Event) : List Event :=
  ((emissions w es).filter Emission.succeeds).map Emission.event

/-- An error means that nothing was recorded, and a success that the event was: the complete lines
are those of the events that are reported as recorded, and no other call leaves a byte. -/
structure Faithful (w : W) (es : List Event) : Prop where
  complete : Check.complete? (emitted w es) = some (reported w es)
  traceless : ∀ m ∈ emissions w es, m.succeeds = false → m.content = []

/-- Calls of which no failed one leaves a byte leave the lines of the others. -/
theorem flatMap_content {ms : List (Emission W)}
    (h : ∀ m ∈ ms, m.succeeds = false → m.content = []) : ms.flatMap Emission.content =
      ((ms.filter Emission.succeeds).map Emission.event).flatMap Event.bytes := by
  induction ms with
  | nil => rfl
  | cons m ms ih =>
    have ih := ih fun m' hm => h m' (List.mem_cons_of_mem m hm)
    rw [List.flatMap_cons, ih]
    cases hm : m.succeeds with
    | true =>
      rw [List.filter_cons_of_pos hm, List.map_cons, List.flatMap_cons,
        Emission.content_of_succeeds hm]
    | false =>
      rw [List.filter_cons_of_neg (by rw [hm]; exact Bool.false_ne_true),
        h m (List.mem_cons_self ..) hm, List.nil_append]

/-- For every output and all events: errors and successes can be relied on if and only if every
call that fails does so with its first attempt to write. -/
theorem faithful_iff (w : W) (es : List Event) :
    Faithful w es ↔ ∀ m ∈ emissions w es, m.succeeds = false → m.Rebuffed := by
  constructor
  · intro h m hm hf
    exact Emission.content_eq_nil.mp (h.traceless m hm hf)
  · intro h
    have hnil : ∀ m ∈ emissions w es, m.succeeds = false → m.content = [] := fun m hm hf =>
      Emission.content_eq_nil.mpr (h m hm hf)
    refine ⟨?_, hnil⟩
    rw [emitted, flatMap_content hnil]
    exact Check.complete?_bytes _

/-- An output that takes a record, and then fails to flush it once. -/
def unflushed : Faulty := { flaw := .failFlush, times := some 1, error := .nothingWritten }

/-- An output that takes a part of a record once before it fails. -/
def torn : Faulty := { flaw := .cut, size := 9, times := some 1, error := .nothingWritten }

def acquisition : Event := ⟨.acquired, ⟨0⟩, "1", ⟨"M", by decide⟩⟩

/-- A record whose flush fails is reported as lost, and is a complete line of the stream. -/
theorem not_faithful_unflushed : ¬ Faithful unflushed [acquisition] ∧
    reported unflushed [acquisition] = [] ∧
    Check.complete? (emitted unflushed [acquisition]) = some [acquisition] := by
  have hr : reported unflushed [acquisition] = [] := by decide +kernel
  have he : emitted unflushed [acquisition] = acquisition.bytes := by decide +kernel
  have hc : Check.complete? acquisition.bytes = some [acquisition] := by
    rw [← Check.complete?_bytes [acquisition], List.flatMap_singleton]
  refine ⟨fun h => ?_, hr, he ▸ hc⟩
  have hcomplete := h.complete
  rw [he, hc, hr] at hcomplete
  contradiction

-- A record of which only a part was taken spoils the next one, which is reported as recorded.
example : reported torn [acquisition, acquisition] = [acquisition] ∧
    Check.complete? (emitted torn [acquisition, acquisition]) = none := by
  decide +kernel

end LockTrace
