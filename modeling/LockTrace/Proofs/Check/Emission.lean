import LockTrace.Check.Clock
import LockTrace.Proofs.Check.Stream
import LockTrace.Proofs.Threads.Linear

namespace LockTrace

namespace Clock

theorem runFrom_of_le {es : List Event} (i : Nat) {before : Event}
    (h : ((before :: es).map (·.time.count)).Pairwise (· ≤ ·)) :
    runFrom i before es = .ok () := by
  induction es generalizing i before with
  | nil => rfl
  | cons ev es ih =>
    obtain ⟨hle, hes⟩ := List.pairwise_cons.mp h
    have hev : ¬ ev.time.count < before.time.count :=
      UInt64.not_lt.mpr (hle _ (List.mem_cons_self ..))
    rw [runFrom, if_neg hev]
    exact ih (i + 1) hes

/-- Times in order are accepted. -/
theorem run_of_le {es : List Event} (h : (es.map (·.time.count)).Pairwise (· ≤ ·)) :
    run es = .ok () := by
  cases es with
  | nil => rfl
  | cons ev es => exact runFrom_of_le 1 h

end Clock

namespace World

variable {V W : Type} [Writer W] {w₀ w : World V (Hall W)} {e : EmitterId} {T : Finset ThreadId}
  {ls : List (Label V)}

/-- Whatever threads record through one emitter and however their steps alternate: as often as
nobody is in the sink, what has arrived there is one whole record for each that was completed, in
the order of completion, and time never runs backwards. -/
theorem emission_linearizable (hT : T.card < UInt64.size) (h₀ : ∀ t, w₀.thread t = {})
    (hn : w₀.tags = 0) (hb : (w₀.booth e).Opens) (h : Trail Stir w₀ ls w)
    (hc : ∀ l ∈ ls, ∀ t call, l.begun? = some (t, call) → t ∈ T ∧ call.Emits e)
    (hfree : (w.booth e).inside = none) : ∃ es title, Function.Injective title ∧
      Chunk.content (w.booth e).arrived =
        (w₀.booth e).sink.visible (es.flatMap Event.bytes) ∧
      es.map Event.gist =
        (ls.filterMap Label.record?).map (fun (t, k, name) => (k, title t, name)) ∧
      (∀ t, own Label.asked? t ls =
        own Label.record? t ls ++ ((w.thread t).stage.pending?.map (·.2)).toList) ∧
      (∀ t, ls.filterMap (Label.answer? t) ++ (w.thread t).stage.answered?.toList =
        .replicate (own Label.record? t ls).length .ok) ∧
      (es.map (·.time.count)).Pairwise (· ≤ ·) ∧ Clock.run es = .ok () ∧ w.tags < UInt64.size := by
  obtain ⟨es, hl⟩ := (Lines.start (T := T) h₀ hn hb).trail h hc
  have hbytes := hl.keeps.bytes
  rw [Booth.left_of_empty hfree, Booth.event?_of_empty hfree, Option.toList_none, List.append_nil,
    Sink.visible_nil, List.append_nil] at hbytes
  have htimes := hl.sorted
  rw [Booth.times_of_empty hfree] at htimes
  have htags : w.tags < UInt64.size :=
    (hl.counted.trans (Finset.card_filter_le T _)).trans_lt hT
  exact ⟨es, w.title, hl.tagged.title_injective, hbytes, gist_of_tells hl.told, hl.order,
    hl.answers, htimes, Clock.run_of_le htimes, htags⟩

/-- While one thread makes its record another one wants to make its own, and the clock goes on. -/
def twoRecords : List (Label Unit) :=
  [.begin 0 (.emit 0 .attempt "J"), .part 0, .part 0, .begin 1 (.emit 0 .wait "K"), .tick, .part 0,
    .part 0, .part 0, .part 0, .record 0 .attempt nameJ, .part 1, .part 1, .collect 0 .ok, .part 1,
    .part 1, .part 1, .part 1, .record 1 .wait nameK]

theorem exists_twoRecords :
    ∃ w, Trail Stir lobby twoRecords w ∧ (w.booth 0).inside = none := by
  constructor
  constructor
  · apply Trail.cons (.begin rfl)
    apply Trail.cons (.part rfl (.enter rfl))
    apply Trail.cons (.part rfl (.time rfl))
    apply Trail.cons (.begin rfl)
    apply Trail.cons (.tick (n := 7) (Nat.zero_le 7))
    apply Trail.cons (.part rfl (.tag rfl))
    apply Trail.cons (.part rfl (.encode rfl))
    apply Trail.cons (.part rfl (.work rfl nofun))
    apply Trail.cons (.part rfl (.work rfl nofun))
    apply Trail.cons (.record rfl rfl)
    apply Trail.cons (.part rfl (.enter rfl))
    apply Trail.cons (.part rfl (.time rfl))
    apply Trail.cons (.collect rfl)
    apply Trail.cons (.part rfl (.tag rfl))
    apply Trail.cons (.part rfl (.encode rfl))
    apply Trail.cons (.part rfl (.work rfl nofun))
    apply Trail.cons (.part rfl (.work rfl nofun))
    apply Trail.cons (.record rfl rfl)
    exact .nil _
  · rfl

theorem emission_linearizable_twoRecords : ∃ w es title, Trail Stir lobby twoRecords w ∧
    (w.booth 0).inside = none ∧ Function.Injective title ∧
    Chunk.content (w.booth 0).arrived = es.flatMap Event.bytes ∧
    es.map Event.gist = [(.attempt, title 0, nameJ), (.wait, title 1, nameK)] ∧
    Clock.run es = .ok () := by
  obtain ⟨w, h, hfree⟩ := exists_twoRecords
  have hb : (lobby.booth 0).Opens := ⟨trivial, rfl, rfl⟩
  have hc : ∀ l ∈ twoRecords, ∀ t call, l.begun? = some (t, call) →
      t ∈ ({0, 1} : Finset ThreadId) ∧ call.Emits 0 := by
    simp [twoRecords, Label.begun?, Call.Emits]
  obtain ⟨es, title, hinj, hbytes, hgist, _, _, _, hrun, _⟩ :=
    emission_linearizable (T := {0, 1}) (by decide) (fun _ => rfl) rfl hb h hc hfree
  exact ⟨w, es, title, h, hfree, hinj, hbytes, hgist, hrun⟩

end World

end LockTrace
