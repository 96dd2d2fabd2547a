import LockTrace.Proofs.Workload.Handoff
import LockTrace.Proofs.Workload.Telling

namespace LockTrace.Queue

variable {R : Type} {items : Nat} {consumers : List ThreadId} {rec : R}

/-- A producer and its consumers in front of an empty store. -/
def lobby (items : Nat) (consumers : List ThreadId) (rec : R) : Play Store R Place :=
  Play.opening (start items) (.consumer .locking) (0 :: consumers) ⟨[], false⟩ rec

theorem place_producer : (lobby items consumers rec).places.get 0 =
    .producer (.toward items 0) := by
  rw [lobby, Play.places_opening, if_pos (List.mem_cons_self ..)]
  rfl

theorem place_consumer {t : ThreadId} (ht : t ≠ 0) :
    (lobby items consumers rec).places.get t = .consumer .locking := by
  rw [lobby, Play.places_opening]
  split
  · exact if_neg ht
  · rfl

theorem opens_lobby {P : R → Prop} (hP : P rec) :
    Play.Opens (routine items) P (lobby items consumers rec) := by
  refine Play.opens_opening hP (fun t => ?_) fun t => ⟨fun _ => rfl, trivial⟩
  rw [start]
  split
  · refine ⟨fun slot => ?_, sound_toward _ _⟩
    exact congrFun (keeps_toward items 0) slot
  · exact ⟨fun _ => rfl, trivial⟩

theorem handoff_lobby : Handoff items [] (lobby items consumers rec).plot := by
  have hproducer : (lobby items consumers rec).places.get 0 = .producer (.toward items 0) :=
    place_producer
  refine ⟨rfl, rfl, ?_, fun t ht => ?_, fun t c hs => ?_, [], rfl, rfl⟩
  · rw [show (lobby items consumers rec).plot.place 0 = _ from hproducer, Producer.toward]
    split
    · exact ⟨by assumption, rfl, rfl⟩
    · exact ⟨by simp [pushed]; omega, rfl⟩
  · rw [show (lobby items consumers rec).plot.place t = _ from place_consumer ht]
    trivial
  · contradiction

/-- The transfer that a worker makes by a move. -/
def mark (p : Play Store R Place) (t : ThreadId) (_ : Play Store R Place) : Option Transfer :=
  transfer? p.plot t (p.world.thread t).stage

section Run

variable [Recorder R] {P : R → Prop} {drift : R → R → Prop} {xs : List Transfer}
  {p : Play Store R Place}

theorem handoff_of_chronicle (hr : Recorder.Keeps 0 P) (hd : ∀ a b, drift a b → P a → P b)
    (hP : P rec)
    (h : Play.Chronicle (script items) (0 :: consumers) drift mark (lobby items consumers rec)
      xs p) :
    Handoff items xs p.plot ∧ ∀ r ∈ popped xs, r.1 ∈ consumers := by
  refine Play.Chronicle.marks_keep (r := routine items) (opens_lobby hP) hr hd
    (I := fun xs b => Handoff items xs b ∧ ∀ r ∈ popped xs, r.1 ∈ consumers)
    ⟨handoff_lobby, List.forall_mem_nil _⟩ ?_ ?_ h
  · rintro xs p p' t ht hc hturn ⟨hi, hpopped⟩
    refine ⟨hi.turn hc hturn, fun r hr => ?_⟩
    rcases mem_popped_append hr with hr | hx
    · exact hpopped r hr
    · obtain ⟨he, h0⟩ := hi.thread_of_pop hx
      rw [he]
      exact (List.mem_cons.mp ht).resolve_left h0
  · rintro xs b b' t c g resume _ hc hturn ⟨hi, hpopped⟩
    refine ⟨?_, hpopped⟩
    have hhandoff := hi.turn hc hturn
    have hquiet : transfer? b t (.parked c g resume) = none := rfl
    rwa [hquiet, Option.toList_none, List.append_nil] at hhandoff

/-- The producer never waits. -/
theorem Handoff.producer_not_waitWhile {b : Plot Store Place} (h : Handoff items xs b)
    {c : CondvarId} {slot : Slot} {condition : Condition Store} {next : Answer Store → Place} :
    script items 0 (b.place 0) ≠ .call (.waitWhile c slot condition) next := by
  have hmaking := h.producer
  cases hs : b.place 0 with
  | producer q => cases q <;> exact nofun
  | consumer c =>
    rw [hs] at hmaking
    exact hmaking.elim

/-- Whoever is to stop is at its end. -/
theorem place_of_stop {t : ThreadId} {s : Place} {result : Except String Unit}
    (h : script items t s = .stop result) :
    s = .producer (.ended result) ∨ s = .consumer (.ended result) := by
  cases s with
  | producer q =>
    cases q with
    | ended r =>
      cases h
      exact .inl rfl
    | resting | locking | telling | pushing | unlocking | calling | lockingLast | closing
    | unlockingLast | callingAll | tellingEnd => cases h
  | consumer c =>
    cases c with
    | ended r =>
      cases h
      exact .inr rfl
    | locking | waiting | looking | popping | processing | again | leaving | tellingEnd
    | failing => cases h

/-- When the producer has ended, everything is put in, and the store is closed. -/
theorem Handoff.of_producer_ended {b : Plot Store Place} (h : Handoff items xs b)
    {result : Except String Unit} (hs : b.place 0 = .producer (.ended result)) :
    (pushed xs).length = items ∧ (b.value 0).finished = true := by
  have hmaking := h.producer
  rw [hs] at hmaking
  exact hmaking

/-- When a consumer has ended, the store is closed, and there is nothing left in it. -/
theorem Handoff.of_consumer_ended {b : Plot Store Place} (h : Handoff items xs b) {t : ThreadId}
    (ht : t ≠ 0) {result : Except String Unit} (hs : b.place t = .consumer (.ended result)) :
    (b.value 0).finished = true ∧ (b.value 0).items = [] := by
  have htaking := h.consumer t ht
  rw [hs] at htaking
  exact htaking

/-- The producer has called all sleepers before it ended. -/
theorem Handoff.awake_of_producer_ended {b : Plot Store Place} (h : Handoff items xs b)
    {result : Except String Unit} (hs : b.place 0 = .producer (.ended result)) (t : ThreadId)
    (c : CondvarId) : b.progress t ≠ .parked c := by
  intro hparked
  have hnot := (h.calm t c hparked).2
  rw [hs] at hnot
  exact hnot trivial

/-- When everybody is at its end, no item is on its way to be told. -/
theorem outstanding_of_ended {b : Plot Store Place} (hc : b.Custody (routine items))
    (hends : ∀ t, b.holder 0 = some t → ∃ result,
      b.place t = .producer (.ended result) ∨ b.place t = .consumer (.ended result)) :
    outstanding b = none := by
  refine Option.eq_none_iff_forall_ne_some.mpr fun ⟨t, i⟩ hout => ?_
  have hpending := (outstanding_eq_some hc).mp hout
  obtain ⟨_, hs | hs⟩ := hends t (holder_of_pending hc hpending)
  all_goals
    rw [hs] at hpending
    contradiction

/-- Whoever has ended did so well, and is at its own end. -/
theorem place_of_ended (hr : Recorder.Keeps 0 P) (hd : ∀ a b, drift a b → P a → P b) (hP : P rec)
    (h : Play.Chronicle (script items) (0 :: consumers) drift mark (lobby items consumers rec)
      xs p) : ∀ e ∈ p.ended, e.2 = .ok () ∧
        (e.1 = 0 ∧ p.places.get e.1 = .producer (.ended e.2) ∨
          e.1 ≠ 0 ∧ p.places.get e.1 = .consumer (.ended e.2)) := by
  intro e he
  obtain ⟨hhandoff, _⟩ := handoff_of_chronicle hr hd hP h
  obtain ⟨own, hf⟩ := Play.Chronicle.exists_follows (opens_lobby hP) hr hd h
  obtain ⟨_, _, _, hsound, _⟩ := hf.stands e.1
  have hsound : Sound (p.places.get e.1) := hsound
  rcases place_of_stop (Play.Chronicle.stops (opens_lobby hP) hr hd rfl h e he) with hs | hs
  · rw [hs] at hsound
    refine ⟨hsound, .inl ⟨?_, hs⟩⟩
    by_contra hne
    have htaking := hhandoff.consumer e.1 hne
    rw [show p.plot.place e.1 = _ from hs] at htaking
    exact htaking
  · rw [hs] at hsound
    refine ⟨hsound, .inr ⟨fun h0 => ?_, hs⟩⟩
    have hmaking := hhandoff.producer
    rw [← h0, show p.plot.place e.1 = _ from hs] at hmaking
    exact hmaking

/-- When nobody can go on, everybody has ended. -/
theorem hasEnded_of_stuck (hr : Recorder.Keeps 0 P) (hd : ∀ a b, drift a b → P a → P b)
    (hP : P rec)
    (h : Play.Chronicle (script items) (0 :: consumers) drift mark (lobby items consumers rec)
      xs p) (hstuck : ∀ t ∈ 0 :: consumers, ∀ pick, p.act (script items) t pick = none) :
    ∀ t ∈ 0 :: consumers, p.hasEnded t = true := by
  obtain ⟨hhandoff, _⟩ := handoff_of_chronicle hr hd hP h
  obtain ⟨own, hf⟩ := Play.Chronicle.exists_follows (opens_lobby hP) hr hd h
  have hsettled := (Play.Chronicle.settled (opens_lobby hP) hr hd (modest items) h hf hstuck).2
  have hzero : p.hasEnded 0 = true := by
    refine (hsettled 0 (List.mem_cons_self ..)).resolve_right ?_
    rintro ⟨_, _, _, _, hwait, _⟩
    exact hhandoff.producer_not_waitWhile hwait
  intro t ht
  refine (hsettled t ht).resolve_right ?_
  rintro ⟨c, _, _, _, _, hparked⟩
  have hended := place_of_ended hr hd hP h
  obtain ⟨_, ⟨_, hs⟩ | ⟨hne, _⟩⟩ :=
    hended _ (Play.mem_ended (fun e he => (hended e he).1) hzero)
  · exact hhandoff.awake_of_producer_ended hs t c hparked
  · exact hne rfl

/-- Whatever the order of moves, whoever wakes by itself, and whomever a call for one wakes: the
items taken out so far and those in the store are, in order, the first ones, as many as were put in.
Whoever has ended left the store closed, a consumer also empty, and nobody is stuck before. When all
have ended, the items that consumers took out and told of are all items, each once. -/
theorem hands_over (hcs : consumers ≠ []) (h0 : 0 ∉ consumers) (hr : Recorder.Keeps 0 P)
    (hd : ∀ a b, drift a b → P a → P b) (hP : P rec)
    (h : Play.Chronicle (script items) (0 :: consumers) drift mark (lobby items consumers rec)
      xs p) :
    (∃ k ≤ items, pushed xs = List.range k ∧
      (popped xs).map (·.2) ++ (p.world.mutex 0).value.items = List.range k) ∧
    (∀ r ∈ popped xs, r.1 ∈ consumers) ∧
    (∀ e ∈ p.ended, e.2 = .ok () ∧ (p.world.mutex 0).value.finished = true ∧
      (e.1 ≠ 0 → (p.world.mutex 0).value.items = [])) ∧
    ((∀ t ∈ 0 :: consumers, ∀ pick, p.act (script items) t pick = none) →
      ∀ t ∈ 0 :: consumers, (t, .ok ()) ∈ p.ended) ∧
    ((∀ t ∈ 0 :: consumers, p.hasEnded t = true) →
      (popped xs).map (·.2) = List.range items ∧
      p.world.notices.filter (·.message = "processing") = (popped xs).map fun r =>
        say "processing" [("consumer", toString r.1), ("item", toString r.2)]) := by
  have h₀ : Play.Opens (routine items) P (lobby items consumers rec) := opens_lobby hP
  obtain ⟨hhandoff, hpopped⟩ := handoff_of_chronicle hr hd hP h
  obtain ⟨own, hf⟩ := Play.Chronicle.exists_follows h₀ hr hd h
  have hended := place_of_ended hr hd hP h
  have hhas {t : ThreadId} (ht : p.hasEnded t = true) : (t, .ok ()) ∈ p.ended :=
    Play.mem_ended (fun e he => (hended e he).1) ht
  refine ⟨⟨_, hhandoff.producer.le, hhandoff.order, hhandoff.flow.trans hhandoff.order⟩, hpopped,
    fun e he => ?_, fun hstuck => ?_, fun hall => ?_⟩
  · obtain ⟨hok, ⟨hz, hs⟩ | ⟨hne, hs⟩⟩ := hended e he
    · exact ⟨hok, (hhandoff.of_producer_ended (hz ▸ hs)).2, fun hne => absurd hz hne⟩
    · obtain ⟨hfinished, hempty⟩ := hhandoff.of_consumer_ended hne hs
      exact ⟨hok, hfinished, fun _ => hempty⟩
  · exact fun t ht => hhas (hasEnded_of_stuck hr hd hP h hstuck t ht)
  · have hplace {t : ThreadId} (ht : t ∈ 0 :: consumers) := hended _ (hhas (hall t ht))
    obtain ⟨t, ht⟩ := List.exists_mem_of_ne_nil consumers hcs
    have hempty : (p.world.mutex 0).value.items = [] := by
      obtain ⟨_, ⟨hz, _⟩ | ⟨hne, hs⟩⟩ := hplace (List.mem_cons_of_mem 0 ht)
      · exact absurd (hz ▸ ht) h0
      · exact (hhandoff.of_consumer_ended hne hs).2
    have hcount : (pushed xs).length = items := by
      obtain ⟨_, ⟨_, hs⟩ | ⟨hne, _⟩⟩ := hplace (List.mem_cons_self ..)
      · exact (hhandoff.of_producer_ended hs).1
      · exact absurd rfl hne
    have hnone : outstanding p.plot = none := by
      refine outstanding_of_ended hf.custody fun t ht => ?_
      obtain ⟨_, hs⟩ := hplace (Play.Chronicle.mem_of_holder h₀ hr hd h ht)
      exact ⟨_, hs.imp And.right And.right⟩
    obtain ⟨ts, hts, htold⟩ := hhandoff.told
    rw [hnone, Option.toList_none, List.append_nil] at htold
    refine ⟨?_, ?_⟩
    · have hflow := hhandoff.flow
      rw [show (p.plot.value 0).items = [] from hempty, List.append_nil] at hflow
      rw [hflow, hhandoff.order, hcount]
    · rw [htold]
      exact hts

end Run

/-- Both consumers fall asleep before there is anything to take. Each of two items wakes one of
them, but the one that was woken last takes the first item. -/
def overtaken : List ThreadId :=
  List.replicate 9 1 ++ List.replicate 9 2 ++ List.replicate 34 0 ++ List.replicate 15 2 ++
    List.replicate 15 1 ++ List.replicate 17 0 ++ List.replicate 17 1 ++ List.replicate 17 2

def transfers : List Transfer := [.push 0, .push 1, .pop 2 0, .pop 1 1]

set_option maxRecDepth 4000 in
theorem rehearse_overtaken : (Play.rehearse? (script 2) mark [] (lobby 2 [1, 2] Desk.console)
    overtaken).map (fun r => (r.1, [0, 1, 2].all r.2.hasEnded)) = some (transfers, true) := by
  decide

theorem hands_over_overtaken : ∃ p, [1, 2] ≠ [] ∧ 0 ∉ [1, 2] ∧
    Recorder.Keeps 0 (fun d : Desk => ∃ es, d.Captures 0 .stdout es none) ∧
    (∃ es, Desk.console.Captures 0 .stdout es none) ∧
    Play.Chronicle (script 2) [0, 1, 2] Desk.Ticks mark (lobby 2 [1, 2] Desk.console) transfers p ∧
    (∀ t ∈ [0, 1, 2], p.hasEnded t = true) ∧ (popped transfers).map (·.2) = List.range 2 ∧
    (p.world.notices.filter (·.message = "processing")).length = 2 := by
  obtain ⟨⟨xs, p⟩, hr, he⟩ := Option.map_eq_some_iff.mp rehearse_overtaken
  obtain ⟨rfl, hall⟩ := Prod.mk.inj he
  have h : Play.Chronicle (script 2) [0, 1, 2] Desk.Ticks mark (lobby 2 [1, 2] Desk.console)
      transfers p := Play.Chronicle.start.rehearse (by simp [overtaken]) hr
  have hended : ∀ t ∈ [0, 1, 2], p.hasEnded t = true := List.all_eq_true.mp hall
  have hcaptures : ∃ es, Desk.console.Captures 0 .stdout es none := ⟨[], Desk.captures_console⟩
  obtain ⟨_, _, _, _, hend⟩ := hands_over (by decide) (by decide) (Desk.keeps_captures 0 .stdout)
    Desk.captures_ticks hcaptures h
  obtain ⟨hitems, hnotices⟩ := hend hended
  refine ⟨p, by decide, by decide, Desk.keeps_captures 0 .stdout, hcaptures, h, hended, hitems, ?_⟩
  rw [hnotices]
  rfl

end LockTrace.Queue
