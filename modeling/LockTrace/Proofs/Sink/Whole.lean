import LockTrace.Proofs.Sink.Room

namespace LockTrace

namespace Sink

variable {W : Type} [Writer W] {s : Sink W}

/-- A sink that takes a record whole or leaves nothing of it, whatever it was offered before. -/
def Whole (s : Sink W) : Prop := ∀ offered (e : Event),
  Chunk.content ((s.after offered).put e.bytes).chunks =
    if ((s.after offered).put e.bytes).result.isOk then e.bytes else []

theorem Whole.put (h : s.Whole) (e : Event) : Chunk.content (s.put e.bytes).chunks =
    if (s.put e.bytes).result.isOk then e.bytes else [] := h [] e

theorem Whole.next (h : s.Whole) (e : Event) : (s.put e.bytes).after.Whole :=
  fun offered e' => h (e :: offered) e'

theorem Whole.of_step {P : Sink W → Prop}
    (put : ∀ s (e : Event), P s → Chunk.content (s.put e.bytes).chunks =
      if (s.put e.bytes).result.isOk then e.bytes else [])
    (step : ∀ s (e : Event), P s → P (s.put e.bytes).after) (h : P s) : s.Whole := by
  intro offered e
  apply put
  induction offered generalizing s with
  | nil => exact h
  | cons e' offered ih => exact ih (step s e' h)

/-- What has room for some records takes those whole, and leaves nothing of the others. -/
theorem HasRoom.whole {room : Option Nat} (h : s.HasRoom room) : s.Whole := by
  intro offered e
  by_cases hr : ∀ n ∈ room, offered.length < n
  · obtain ⟨hok, hc⟩ := h.takes offered e hr
    rw [hok, hc]
    exact (if_pos rfl).symm
  · obtain ⟨n, hn⟩ := not_forall.mp hr
    obtain ⟨hn, hle⟩ := Classical.not_imp.mp hn
    obtain ⟨⟨cause, hok⟩, hc⟩ := h.refuses offered e n hn (Nat.le_of_not_lt hle)
    rw [hok, hc]
    exact (if_neg Bool.false_ne_true).symm

/-- An output that takes all that it is offered or nothing, and whose flushes never fail. -/
theorem whole_writer {P : W → Prop}
    (write : ∀ w n, P w → (∃ w', Writer.write w n = (.accepted n, w') ∧ P w') ∨
      ∃ cause w', Writer.write w n = (.failed cause, w') ∧ P w')
    (flush : ∀ w, P w → ∃ w', Writer.flush w = (.ok (), w') ∧ P w') {w : W} (h : P w) :
    (Sink.writer w).Whole := by
  refine Whole.of_step (P := fun s => ∃ w, s = .writer w ∧ P w) ?_ ?_ ⟨w, rfl, h⟩
  all_goals
    rintro _ e ⟨w, rfl, h⟩
    rcases write w e.bytes.length h with ⟨w₁, hw, h₁⟩ | ⟨cause, w₁, hw, h₁⟩
  · obtain ⟨w', hf, _⟩ := flush w₁ h₁
    rw [put, writeRecord_of_taken e.bytes_ne_nil hw hf]
    exact (Chunk.content_whole e.bytes).trans (if_pos rfl).symm
  · rw [put, writeRecord_of_refused e.bytes_ne_nil hw]
    exact (if_neg Bool.false_ne_true).symm
  · obtain ⟨w', hf, h'⟩ := flush w₁ h₁
    rw [put, writeRecord_of_taken e.bytes_ne_nil hw hf]
    exact ⟨w', rfl, h'⟩
  · rw [put, writeRecord_of_refused e.bytes_ne_nil hw]
    exact ⟨w₁, rfl, h₁⟩

/-- An output that fails on some records and recovers afterwards. -/
theorem whole_failWrite {name : String} {f : Faulty} (hf : f.flaw = .failWrite) :
    (Sink.writer (⟨name, f⟩ : Labelled)).Whole := by
  refine whole_writer (P := fun w => w.output.flaw = .failWrite) ?_ ?_ hf
  · rintro ⟨name, f⟩ n (hf : f.flaw = .failWrite)
    have hw : Writer.write (⟨name, f⟩ : Labelled) n =
        ((f.write n).1, ⟨name, (f.write n).2⟩) := rfl
    have hwrite : f.write n = if f.failing then f.refuse n else (.accepted n, f) := by
      rw [Faulty.write, hf]
    rw [hw, hwrite]
    split
    · unfold Faulty.refuse
      split
      · exact .inl ⟨_, rfl, hf⟩
      · exact .inr ⟨_, _, rfl, hf⟩
    · exact .inl ⟨_, rfl, hf⟩
  · rintro ⟨name, f⟩ (hf : f.flaw = .failWrite)
    refine ⟨⟨name, { f with done := f.done + 1 }⟩, ?_, hf⟩
    simp [Writer.flush, Faulty.flush, hf]

end Sink

namespace Desk

variable {d d' : Desk} {e : EmitterId} {o : Outlet} {es : List Event}

/-- The records of an emitter are seen at an outlet where only they arrive, each of them whole or
not at all. -/
structure Collects (d : Desk) (e : EmitterId) (o : Outlet) (es : List Event) : Prop where
  outlet : (d.sinks.get e).outlet? = some o
  whole : (d.sinks.get e).Whole
  bytes : d.bytes o = es.flatMap Event.bytes

/-- A record arrives if and only if it is reported as written. -/
theorem Collects.record (h : d.Collects e o es) (k : Kind) (tid : String) (lock : LockName) :
    (d.record e k tid lock).2.Collects e o
      (if (d.record e k tid lock).1.isOk then es ++ [⟨k, d.clock, tid, lock⟩] else es) where
  outlet := (outlet?_record d e k tid lock).trans h.outlet
  whole := by
    rw [sink_record]
    exact h.whole.next _
  bytes := by
    rw [bytes_record d e k tid lock h.outlet, h.bytes, h.whole.put, isOk_record]
    split
    · rw [List.flatMap_append, List.flatMap_singleton]
    · rw [List.append_nil]

/-- The clock has gone on, and the output of an emitter has come to take other records than it would
have taken before, each of them whole or not at all. -/
def Wavers (e : EmitterId) (d d' : Desk) : Prop := ∃ clock s, s.Whole ∧
  s.outlet? = (d.sinks.get e).outlet? ∧ d' = { d with clock, sinks := d.sinks.set e s }

theorem Collects.waver (h : d.Collects e o es) (hd : d.Wavers e d') : d'.Collects e o es := by
  obtain ⟨clock, s, hs, ho, rfl⟩ := hd
  refine ⟨?_, ?_, h.bytes⟩
  · rw [Table.get_set_self, ho]
    exact h.outlet
  · rw [Table.get_set_self]
    exact hs

/-- Whether the next record is taken is up to the output. -/
theorem exists_wavers {name : String} (h : (d.sinks.get e).outlet? = some (.named name))
    (takes : Bool) :
    ∃ d', d.Wavers e d' ∧ ∀ k tid lock, (d'.record e k tid lock).1.isOk = takes := by
  let f : Faulty := { flaw := .failWrite, after := takes.toNat, error := .nothingWritten }
  let s : Sink Labelled := .writer ⟨name, f⟩
  refine ⟨{ d with sinks := d.sinks.set e s }, ⟨d.clock, s, ?_, h.symm, rfl⟩, ?_⟩
  · exact Sink.whole_failWrite rfl
  · intro k tid lock
    rw [isOk_record, Table.get_set_self]
    cases takes with
    | true => rw [Sink.put_before rfl Nat.one_pos]; rfl
    | false => rw [Sink.put_after rfl rfl (Nat.le_refl 0)]; rfl

end Desk

end LockTrace
