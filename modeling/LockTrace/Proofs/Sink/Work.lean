import LockTrace.Proofs.Sink.Room

namespace LockTrace

/-- What is left to do of handing a record over: to write some bytes, to flush, or to report. -/
inductive Job
  | write (left : List UInt8)
  | flush
  | done (result : Except IoError Unit)

namespace Job

/-- The bytes that have not arrived yet. -/
def left : Job → List UInt8
  | .write left => left
  | _ => []

/-- An upper bound on the calls that are still to be made. -/
def size : Job → Nat
  | .write left => left.length + 2
  | .flush => 1
  | .done _ => 0

/-- Nothing has gone wrong so far. -/
def Sound (j : Job) : Prop := ∀ cause, j ≠ .done (.error cause)

end Job

/-- An output whose calls succeed as long as it has a property: it takes at least a part of what it
is offered. -/
structure Reliable {W : Type} [Writer W] (P : W → Prop) : Prop where
  write : ∀ w n, P w → ∃ m w', Writer.write w (n + 1) = (.accepted (m + 1), w') ∧ P w'
  flush : ∀ w, P w → ∃ w', Writer.flush w = (.ok (), w') ∧ P w'

namespace Sink

variable {W : Type} [Writer W]

/-- The next call that hands a record over: the sink afterwards, what arrives by it, and what is
left to do. -/
def work (s : Sink W) : Job → Sink W × List Chunk × Job
  | .write left =>
    match s, left with
    | .stdout, _ | .stderr, _ => (s, [.bytes left], .flush)
    | .discard, _ => (s, [], .done (.ok ()))
    | .writer w, [] => (.writer w, [], .flush)
    | .writer w, b :: bs =>
      match Writer.write w (bs.length + 1) with
      | (.failed e, w) => (.writer w, [], .done (.error e))
      | (.accepted 0, w) => (.writer w, [], .done (.error .nothingWritten))
      | (.accepted (n + 1), w) => (.writer w, [.bytes (b :: bs.take n)], .write (bs.drop n))
  | .flush =>
    match s with
    | .stdout | .stderr => (s, [.flushed], .done (.ok ()))
    | .discard => (s, [], .done (.ok ()))
    | .writer w =>
      match Writer.flush w with
      | (.ok (), w) => (.writer w, [.flushed], .done (.ok ()))
      | (.error e, w) => (.writer w, [], .done (.error e))
  | .done r => (s, [], .done r)

/-- What all calls come to that are left to be made. -/
def rest (s : Sink W) : Job → Written (Sink W)
  | .write left => s.put left
  | .flush =>
    match s with
    | .stdout | .stderr => ⟨.ok (), [.flushed], s⟩
    | .discard => ⟨.ok (), [], s⟩
    | .writer w =>
      match Writer.flush w with
      | (.ok (), w) => ⟨.ok (), [.flushed], .writer w⟩
      | (.error e, w) => ⟨.error e, [], .writer w⟩
  | .done r => ⟨r, [], s⟩

theorem rest_write (s : Sink W) (left : List UInt8) : s.rest (.write left) = s.put left := rfl

theorem size_work {s : Sink W} {j : Job} (hj : ∀ r, j ≠ .done r) :
    (s.work j).2.2.size < j.size := by
  cases j with
  | done r => exact (hj r rfl).elim
  | flush =>
    cases s with
    | stdout | stderr | discard => exact Nat.one_pos
    | writer w =>
      simp only [work]
      split <;> exact Nat.one_pos
  | write left =>
    cases s with
    | stdout | stderr | discard => simp [work, Job.size]
    | writer w =>
      cases left with
      | nil => simp [work, Job.size]
      | cons b bs =>
        simp only [work]
        split
        · exact Nat.succ_pos _
        · exact Nat.succ_pos _
        · simp only [Job.size, List.length_drop, List.length_cons]
          omega

/-- The first of the calls and those after it come to what all of them come to. -/
theorem rest_work (s : Sink W) (j : Job) : s.rest j =
    { (s.work j).1.rest (s.work j).2.2 with
      chunks := (s.work j).2.1 ++ ((s.work j).1.rest (s.work j).2.2).chunks } := by
  cases j with
  | done r => rfl
  | flush =>
    cases s with
    | stdout | stderr | discard => rfl
    | writer w =>
      simp only [work, rest]
      split <;> rfl
  | write left =>
    cases s with
    | stdout | stderr | discard => rfl
    | writer w =>
      cases left with
      | nil =>
        rcases hf : Writer.flush w with ⟨_ | _, w'⟩ <;>
          simp [work, rest, put, writeRecord, writeAll, hf]
      | cons b bs =>
        rcases hw : Writer.write w (bs.length + 1) with ⟨(_ | n) | _, w'⟩
        · simp [work, rest, put, writeRecord, writeAll, hw]
        · rcases hr : writeAll w' (bs.drop n) with ⟨_ | _, cs, w₁⟩
          · simp [work, rest, put, writeRecord, writeAll, hw, hr]
          · rcases hf : Writer.flush w₁ with ⟨_ | _, w₂⟩ <;>
              simp [work, rest, put, writeRecord, writeAll, hw, hr, hf]
        · simp [work, rest, put, writeRecord, writeAll, hw]

/-- A sink whose output is reliable. The streams of the process are. -/
def Steady : Sink W → Prop
  | .writer w => ∃ P : W → Prop, Reliable P ∧ P w
  | _ => True

/-- What can be seen of bytes that a sink has taken. -/
def visible : Sink W → List UInt8 → List UInt8
  | .discard, _ => []
  | _, bytes => bytes

omit [Writer W] in
@[simp] theorem visible_nil (s : Sink W) : s.visible [] = [] := by cases s <;> rfl

omit [Writer W] in
theorem visible_of_ne {s : Sink W} (h : s ≠ .discard) (bytes : List UInt8) :
    s.visible bytes = bytes := by
  cases s with
  | discard => exact absurd rfl h
  | stdout | stderr | writer => rfl

omit [Writer W] in
theorem visible_append (s : Sink W) (bs bs' : List UInt8) :
    s.visible (bs ++ bs') = s.visible bs ++ s.visible bs' := by
  cases s <;> rfl

/-- With a steady sink nothing goes wrong, and what arrives is what is no longer left. -/
theorem Steady.work {s : Sink W} (h : s.Steady) {j : Job} (hj : j.Sound) :
    (s.work j).1.Steady ∧ (s.work j).2.2.Sound ∧ (s.work j).1.visible = s.visible ∧
      Chunk.content (s.work j).2.1 ++ s.visible (s.work j).2.2.left = s.visible j.left := by
  cases s with
  | stdout | stderr =>
    cases j with
    | write left =>
      exact ⟨trivial, nofun, rfl, by simp [Sink.work, visible, Job.left, Chunk.content]⟩
    | flush => exact ⟨trivial, nofun, rfl, rfl⟩
    | done r => exact ⟨trivial, hj, rfl, rfl⟩
  | discard =>
    cases j with
    | write | flush => exact ⟨trivial, nofun, rfl, rfl⟩
    | done r => exact ⟨trivial, hj, rfl, rfl⟩
  | writer w =>
    obtain ⟨P, hP, hw⟩ := h
    cases j with
    | done r => exact ⟨⟨P, hP, hw⟩, hj, rfl, rfl⟩
    | flush =>
      obtain ⟨w', hf, hw'⟩ := hP.flush w hw
      have he : (Sink.writer w).work .flush = (.writer w', [.flushed], .done (.ok ())) := by
        simp [Sink.work, hf]
      rw [he]
      exact ⟨⟨P, hP, hw'⟩, nofun, rfl, rfl⟩
    | write left =>
      cases left with
      | nil => exact ⟨⟨P, hP, hw⟩, nofun, rfl, rfl⟩
      | cons b bs =>
        obtain ⟨m, w', hwrite, hw'⟩ := hP.write w bs.length hw
        have he : (Sink.writer w).work (.write (b :: bs)) =
            (.writer w', [.bytes (b :: bs.take m)], .write (bs.drop m)) := by
          simp [Sink.work, hwrite]
        rw [he]
        exact ⟨⟨P, hP, hw'⟩, nofun, rfl, by simp [visible, Job.left, Chunk.content]⟩

end Sink

end LockTrace
