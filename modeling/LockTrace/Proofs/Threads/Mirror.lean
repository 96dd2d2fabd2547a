import LockTrace.Proofs.Threads.Linear

namespace LockTrace

variable {V W : Type}

/-- The step can be told from outside: it is none of those within an emission. -/
def Label.outward : Label V → Bool
  | .part _ => false
  | _ => true

/-- Where a thread stood before it handed anything over. -/
def Task.before : Task → Task
  | .work ev _ => .encode ev
  | task => task

namespace Booth

variable [Writer W] (b : Booth W)

/-- The sink as it is going to be when the record that is being made has been handed over. -/
def ahead : Sink W :=
  match b.inside with
  | some (_, .encode ev) => (b.sink.put ev.bytes).after
  | some (_, .work _ j) => (b.sink.rest j).after
  | _ => b.sink

/-- A sink was put into the booth, and since then it was given the records of some events and the
one that is being made. -/
structure Serves (s : Sink W) (es : List Event) : Prop where
  keeps : b.Keeps s.visible es
  ahead : b.ahead = s.after (es ++ b.event?.toList)

variable {b} {t : ThreadId} {ev : Event} {j : Job} {s : Sink W} {es : List Event}

theorem ahead_of_inside {task : Task} (h : b.inside = some (t, task)) :
    b.ahead = ({ b with inside := some (t, task) } : Booth W).ahead := by
  rw [ahead, h]
  rfl

theorem ahead_work (hb : b.inside = some (t, .work ev j)) : (b.work t ev j).ahead = b.ahead := by
  have hrest := Sink.rest_work b.sink j
  rw [ahead_of_inside hb]
  exact (congrArg Written.after hrest).symm

namespace Serves

/-- A thread goes on to a task of the same record that leaves the sink to become the same. -/
theorem seat (h : b.Serves s es) {task : Task} (hs : task.Sound) (hl : task.left = b.left)
    (he : task.event? = b.event?)
    (ha : ({ b with inside := some (t, task) } : Booth W).ahead = b.ahead) :
    Serves { b with inside := some (t, task) } s es where
  keeps := h.keeps.seat hs hl he
  ahead := by
    rw [event?_of_inside rfl, he, ha]
    exact h.ahead

/-- The event that is to be recorded is known. -/
theorem encode (h : b.Serves s es) (hl : b.left = []) (he : b.event? = none)
    (ha : b.ahead = b.sink) : Serves { b with inside := some (t, .encode ev) } s es where
  keeps := h.keeps.encode hl he
  ahead := by
    have hsink := h.ahead
    rw [ha, he, Option.toList_none, List.append_nil] at hsink
    rw [event?_of_inside rfl, Task.event?, Option.toList_some, Sink.after_concat, ← hsink]
    rfl

theorem work (h : b.Serves s es) (hb : b.inside = some (t, .work ev j)) :
    (b.work t ev j).Serves s es where
  keeps := h.keeps.work hb
  ahead := by
    rw [ahead_work hb, h.ahead, event?_of_inside hb]
    rfl

theorem vacate (h : b.Serves s es) {r : Except IoError Unit}
    (hb : b.inside = some (t, .work ev (.done r))) : b.vacate.Serves s (es ++ [ev]) where
  keeps := (h.keeps.vacate hb).1
  ahead := by
    have hsink := h.ahead
    rw [event?_of_inside hb, ahead_of_inside hb] at hsink
    rw [event?_of_empty rfl, Option.toList_none, List.append_nil]
    exact hsink

/-- When nobody is inside the sink has been given just the records of the events. -/
theorem of_empty (h : b.Serves s es) (hb : b.inside = none) :
    Chunk.content b.arrived = s.visible (es.flatMap Event.bytes) ∧ b.sink = s.after es := by
  have hbytes := h.keeps.bytes
  have hsink := h.ahead
  rw [left_of_empty hb, event?_of_empty hb, Option.toList_none, List.append_nil,
    Sink.visible_nil, List.append_nil] at hbytes
  rw [event?_of_empty hb, Option.toList_none, List.append_nil, Booth.ahead, hb] at hsink
  exact ⟨hbytes, hsink⟩

end Serves

/-- A sink that was just put into a booth in which nobody is. -/
theorem serves_new (hs : s.Steady) (hb : b.inside = none) (ha : b.arrived = [])
    (he : b.sink = s) : b.Serves s [] where
  keeps := by
    refine ⟨he ▸ hs, he ▸ rfl, fun t task ht => ?_, ?_⟩
    · rw [hb] at ht
      contradiction
    · rw [left_of_empty hb, event?_of_empty hb, ha]
      simp
  ahead := by
    rw [event?_of_empty hb, Booth.ahead, hb]
    exact he

end Booth

namespace World

variable {w w₁ w₁' w' : World V (Hall W)} {t : ThreadId} {e : EmitterId} {b : Booth W}

/-- Two systems that differ at most in the sink of one emitter. -/
def Like (e : EmitterId) (w w' : World V (Hall W)) : Prop :=
  ∀ b, w.setBooth e b = w'.setBooth e b

theorem booth_of_outer (h : w'.outer = w.outer) : w'.booth e = w.booth e :=
  congrArg (·.1.booth e) h

theorem begin_setBooth (w : World V (Hall W)) (e : EmitterId) (b : Booth W) (t : ThreadId)
    (call : Call V) :
    (w.setBooth e b).begin t call = (w.begin t call).map (·.setBooth e b) := by
  have hopening : (w.setBooth e b).opening t call = w.opening t call := by cases call <;> rfl
  unfold begin
  rw [thread_setBooth, hopening]
  split
  · rw [Option.map_map]
    congr 1
    funext s
    cases call <;> rfl
  · rfl

theorem collect_setBooth (w : World V (Hall W)) (e : EmitterId) (b : Booth W) (t : ThreadId) :
    (w.setBooth e b).collect t = (w.collect t).map fun r => (r.1, r.2.setBooth e b) := by
  unfold collect
  rw [thread_setBooth]
  split <;> rfl

namespace Like

theorem of_eq (h : w.setBooth e b = w'.setBooth e b) : Like e w w' := by
  intro b'
  have h' := congrArg (·.setBooth e b') h
  simpa using h'

theorem setBooth (w : World V (Hall W)) (b : Booth W) : Like e (w.setBooth e b) w :=
  .of_eq (b := b) (setBooth_setBooth ..)

theorem symm (h : Like e w w') : Like e w' w := fun b => (h b).symm

theorem trans (h : Like e w w₁) (h' : Like e w₁ w') : Like e w w' := fun b => (h b).trans (h' b)

theorem thread (h : Like e w w') (t : ThreadId) : w.thread t = w'.thread t :=
  congrArg (·.thread t) (h (w.booth e))

theorem elapsed (h : Like e w w') : w.recorder.elapsed = w'.recorder.elapsed :=
  congrArg (·.recorder.elapsed) (h (w.booth e))

theorem now (h : Like e w w') : w.recorder.now = w'.recorder.now := by
  rw [Hall.now, Hall.now, h.elapsed]

theorem setStage (h : Like e w w') (t : ThreadId) (s : Stage V) :
    Like e (w.setStage t s) (w'.setStage t s) := fun b => congrArg (·.setStage t s) (h b)

theorem tick (h : Like e w w') (n : Nat) :
    Like e { w with recorder := { w.recorder with elapsed := n } }
      { w' with recorder := { w'.recorder with elapsed := n } } :=
  fun b => congrArg (fun w => { w with recorder := { w.recorder with elapsed := n } }) (h b)

theorem tagOf (h : Like e w w') (t : ThreadId) :
    (w.tagOf t).1 = (w'.tagOf t).1 ∧ Like e (w.tagOf t).2 (w'.tagOf t).2 := by
  have hb (b : Booth W) := congrArg (·.tagOf t) (h b)
  simp only [tagOf_setBooth] at hb
  exact ⟨(Prod.mk.inj (hb (w.booth e))).1, fun b => (Prod.mk.inj (hb b)).2⟩

theorem begin (h : Like e w w') {call : Call V} (hb : w.begin t call = some w₁) :
    ∃ w₁', w'.begin t call = some w₁' ∧ Like e w₁ w₁' := by
  have heq := congrArg (·.begin t call) (h (w.booth e))
  simp only [begin_setBooth, hb, Option.map_some] at heq
  obtain ⟨w₁', hw', heq⟩ := Option.map_eq_some_iff.mp heq.symm
  exact ⟨w₁', hw', of_eq heq.symm⟩

theorem collect (h : Like e w w') {a : Answer V} (hc : w.collect t = some (a, w₁)) :
    ∃ w₁', w'.collect t = some (a, w₁') ∧ Like e w₁ w₁' := by
  have heq := congrArg (·.collect t) (h (w.booth e))
  simp only [collect_setBooth, hc, Option.map_some] at heq
  obtain ⟨⟨a', w₁'⟩, hw', heq⟩ := Option.map_eq_some_iff.mp heq.symm
  obtain ⟨rfl, hw⟩ : a' = a ∧ w₁'.setBooth e (w.booth e) = w₁.setBooth e (w.booth e) :=
    Prod.mk.inj heq
  exact ⟨w₁', hw', of_eq hw.symm⟩

end Like

variable [Writer W] {T : Finset ThreadId} {see : List UInt8 → List UInt8} {ls : List (Label V)}
  {all es : List Event} {k : Kind} {name : LockName} {s : Sink W}

/-- A thread that hands a record over gets to the last step of that. -/
theorem Lines.exists_done (h : Lines e T see w ls all)
    (hs : (w.thread t).stage = .emitting e k name) {ev : Event} {j : Job}
    (hb : (w.booth e).inside = some (t, .work ev j)) : ∃ n r w',
      Trail Stir w (.replicate n (.part t)) w' ∧ Lines e T see w' ls all ∧ Like e w w' ∧
      (w'.booth e).inside = some (t, .work ev (.done r)) := by
  induction hn : j.size using Nat.strongRecOn generalizing w j with
  | ind n ih =>
    by_cases hj : ∃ r, j = .done r
    · obtain ⟨r, rfl⟩ := hj
      exact ⟨0, r, w, .nil w, h, fun _ => rfl, hb⟩
    · have hj : ∀ r, j ≠ .done r := fun r h => hj ⟨r, h⟩
      have hp : (w.thread t).stage.pending? = some (e, k, name) := by rw [hs]; rfl
      have hpart : w.Part t e k name _ := .work hb hj
      obtain ⟨m, r, w', htrail, hlines, hlike, hdone⟩ := ih _ (hn ▸ Sink.size_work hj)
        (h.part hp hpart) hs (by rw [booth_setBooth_self]; rfl) rfl
      exact ⟨m + 1, r, w', .cons (.part hp hpart) htrail, hlines,
        (Like.setBooth w _).symm.trans hlike, hdone⟩

/-- Parts of emissions can be added to the labels. -/
theorem Lines.parts (h : Lines e T see w ls all) (t : ThreadId) (n : Nat) :
    Lines e T see w (ls ++ .replicate n (.part t)) all := by
  induction n with
  | zero =>
    rw [List.replicate_zero, List.append_nil]
    exact h
  | succ n ih =>
    rw [List.replicate_succ', ← List.append_assoc]
    exact ih.quiet rfl rfl fun _ => rfl

/-- A system of threads that make the same records as those of another one, and at the same
moments, but hand them over to a sink of their own. A record goes there when it is complete. -/
structure Mirrors (e : EmitterId) (T : Finset ThreadId) (s : Sink W) (w w' : World V (Hall W))
    (ls : List (Label V)) (all : List Event) : Prop where
  like : Like e w w'
  lines : Lines e T s.visible w' ls all
  inside : (w'.booth e).inside = (w.booth e).inside.map fun x => (x.1, x.2.before)

/-- What a step of a system is mirrored by. -/
def Mirrored (e : EmitterId) (T : Finset ThreadId) (s : Sink W) (w₁ w' : World V (Hall W))
    (ls : List (Label V)) (l : Label V) (all : List Event) : Prop :=
  ∃ ls' w₁', Trail Stir w' ls' w₁' ∧ ls'.filter Label.outward = [l].filter Label.outward ∧
    Mirrors e T s w₁ w₁' (ls ++ ls') all

/-- The event whose record a step completes. -/
def completed (w : World V (Hall W)) (e : EmitterId) : Label V → List Event
  | .record .. => (w.booth e).event?.toList
  | _ => []

variable {l : Label V} {s' : Sink W}

omit [Writer W] in
theorem completed_of_quiet (hl : l.record? = none) : w.completed e l = [] := by
  cases l <;> first | rfl | contradiction

omit [Writer W] in
theorem completed_record {ev : Event} {j : Job} (hi : (w.booth e).inside = some (t, .work ev j))
    (t : ThreadId) (k : Kind) (name : LockName) :
    w.completed e (.record t k name : Label V) = [ev] := by
  change (w.booth e).event?.toList = [ev]
  rw [Booth.event?_of_inside hi]
  rfl

namespace Mirrors

theorem stages (h : Mirrors e T s w w' ls all) (t : ThreadId) :
    (w.thread t).stage = .idle ∨ (w.thread t).stage = .finished .ok ∨
      t ∈ T ∧ ∃ k name, (w.thread t).stage = .emitting e k name := by
  rw [h.like.thread t]
  exact h.lines.stages t

theorem emitting (h : Mirrors e T s w w' ls all) {e' : EmitterId}
    (hp : (w.thread t).stage.pending? = some (e', k, name)) :
    e' = e ∧ (w.thread t).stage = .emitting e k name := by
  rw [h.like.thread t] at hp ⊢
  exact ⟨(h.lines.emitting hp).1, (h.lines.emitting hp).2.2⟩

/-- What a step does to the sink. -/
theorem serves (h : Mirrors e T s w w' ls all) (hb : (w.booth e).Serves s' es)
    (hm : w.Stir l w₁) : (w₁.booth e).Serves s' (es ++ w.completed e l) := by
  cases hm with
  | begin hbegin =>
    rw [completed_of_quiet rfl, List.append_nil, booth_of_outer (outer_begin hbegin)]
    exact hb
  | collect hcollect =>
    rw [completed_of_quiet rfl, List.append_nil, booth_of_outer (outer_collect hcollect)]
    exact hb
  | @act t _ pick hp ha =>
    rw [advance_of_emitter (h.stages t) hp] at ha
    contradiction
  | @rouse t _ hr =>
    rw [rouse_of_emitter (h.stages t)] at hr
    contradiction
  | tick hn =>
    rw [completed_of_quiet rfl, List.append_nil]
    exact hb
  | @part t e' k name _ hp hpart =>
    obtain ⟨rfl, hs⟩ := h.emitting hp
    rw [completed_of_quiet rfl, List.append_nil]
    cases hpart with
    | enter hi =>
      rw [seat, booth_setBooth_self]
      refine hb.seat trivial (Booth.left_of_empty hi).symm (Booth.event?_of_empty hi).symm ?_
      rw [Booth.ahead, Booth.ahead, hi]
    | time hi =>
      rw [seat, booth_setBooth_self]
      refine hb.seat trivial (Booth.left_of_inside hi).symm (Booth.event?_of_inside hi).symm ?_
      rw [Booth.ahead_of_inside hi]
      rfl
    | tag hi =>
      rw [seat, booth_setBooth_self, booth_tagOf]
      refine hb.encode (Booth.left_of_inside hi) (Booth.event?_of_inside hi) ?_
      rw [Booth.ahead_of_inside hi]
      rfl
    | @encode ev hi =>
      have hsound : (Task.work ev (.write ev.bytes)).Sound := by
        intro cause hj
        cases hj
      have hleft : (Task.work ev (.write ev.bytes)).left = (w.booth e').left := by
        rw [Booth.left_of_inside hi, Task.left, Task.left, Job.left]
      rw [seat, booth_setBooth_self]
      refine hb.seat hsound hleft (Booth.event?_of_inside hi).symm ?_
      rw [Booth.ahead_of_inside hi, Booth.ahead, Booth.ahead]
      exact congrArg Written.after (Sink.rest_write _ _)
    | work hi hj =>
      rw [booth_setBooth_self]
      exact hb.work hi
  | @record t e' k name ev r hp hi =>
    obtain ⟨rfl, hs⟩ := h.emitting hp
    have hw : ((w.vacate e').resume t (r.mapError .sink)).booth e' = (w.booth e').vacate := by
      rw [resume_emitting (w := w.vacate e') hs]
      exact booth_setBooth_self ..
    rw [hw, completed_record hi]
    exact hb.vacate hi

theorem pending (h : Mirrors e T s w w' ls all) {x : EmitterId × Kind × LockName}
    (hp : (w.thread t).stage.pending? = some x) : (w'.thread t).stage.pending? = some x := by
  rw [← h.like.thread t]
  exact hp

theorem inside_some (h : Mirrors e T s w w' ls all) {task : Task}
    (hi : (w.booth e).inside = some (t, task)) :
    (w'.booth e).inside = some (t, task.before) := by
  rw [h.inside, hi]
  rfl

/-- The sink of the other system has all records that are complete, and nothing else. -/
theorem content (h : Mirrors e T s w w' ls all) :
    Chunk.content (w'.booth e).arrived = s.visible (all.flatMap Event.bytes) := by
  have hbytes := h.lines.keeps.bytes
  have untouched (hl : (w'.booth e).left = []) (he : (w'.booth e).event? = none) :
      Chunk.content (w'.booth e).arrived = s.visible (all.flatMap Event.bytes) := by
    rw [hl, he, Option.toList_none, List.append_nil, Sink.visible_nil, List.append_nil] at hbytes
    exact hbytes
  cases hi : (w.booth e).inside with
  | none =>
    have hi' : (w'.booth e).inside = none := by
      rw [h.inside, hi]
      rfl
    exact untouched (Booth.left_of_empty hi') (Booth.event?_of_empty hi')
  | some x =>
    obtain ⟨t, task⟩ := x
    have hi' := h.inside_some hi
    have waiting (ev : Event) (hb : task.before = .encode ev) :
        Chunk.content (w'.booth e).arrived = s.visible (all.flatMap Event.bytes) := by
      rw [hb] at hi'
      rw [Booth.left_of_inside hi', Booth.event?_of_inside hi', Task.left, Task.event?,
        Option.toList_some, List.flatMap_append, List.flatMap_singleton,
        Sink.visible_append] at hbytes
      exact List.append_cancel_right hbytes
    cases task with
    | time | tag => exact untouched (Booth.left_of_inside hi') (Booth.event?_of_inside hi')
    | encode ev | work ev => exact waiting ev rfl

/-- The same step is made by both, and changes no sink. -/
theorem same (h : Mirrors e T s w w' ls all) (hlike : Like e w₁ w₁') (hw : w₁.booth e = w.booth e)
    (hw' : w₁'.booth e = w'.booth e) (hm : w'.Stir l w₁')
    (hl : Lines e T s.visible w₁' (ls ++ [l]) all) : Mirrored e T s w₁ w' ls l all := by
  refine ⟨[l], w₁', .cons hm (.nil _), rfl, hlike, hl, ?_⟩
  rw [hw, hw']
  exact h.inside

/-- A thread goes on to the same task in both. -/
theorem seat (hlike : Like e w₁ w₁') {task : Task} (hm : w'.Stir (.part t) (w₁'.seat t e task))
    (hl : Lines e T s.visible (w₁'.seat t e task) (ls ++ [.part t]) all)
    (ht : task.before = task) : Mirrored e T s (w₁.seat t e task) w' ls (.part t) all := by
  refine ⟨[.part t], _, .cons hm (.nil _), rfl, ?_, hl, ?_⟩
  · exact (Like.setBooth w₁ _).trans (hlike.trans (Like.setBooth w₁' _).symm)
  · rw [World.seat, World.seat, booth_setBooth_self, booth_setBooth_self, Option.map_some, ht]

/-- A thread goes on with handing its record over, and the other system does nothing. -/
theorem wait (h : Mirrors e T s w w' ls all) {b : Booth W} {ev : Event} {j : Job} {task : Task}
    (hi : (w.booth e).inside = some (t, task)) (hb : b.inside = some (t, .work ev j))
    (ht : task.before = .encode ev) : Mirrored e T s (w.setBooth e b) w' ls (.part t) all := by
  refine ⟨[], w', .nil _, rfl, (Like.setBooth w b).trans h.like, ?_, ?_⟩
  · rw [List.append_nil]
    exact h.lines
  · rw [booth_setBooth_self, hb, h.inside_some hi, ht]
    rfl

theorem part (h : Mirrors e T s w w' ls all)
    (hp : (w.thread t).stage.pending? = some (e, k, name)) (hm : w.Part t e k name w₁) :
    Mirrored e T s w₁ w' ls (.part t) all := by
  have hp' := h.pending hp
  have goes {w₂ : World V (Hall W)} (hpart : w'.Part t e k name w₂) :
      w'.Stir (.part t) w₂ ∧ Lines e T s.visible w₂ (ls ++ [.part t]) all :=
    ⟨.part hp' hpart, (h.lines.part hp' hpart).quiet rfl rfl fun _ => rfl⟩
  cases hm with
  | enter hi =>
    have hi' : (w'.booth e).inside = none := by
      rw [h.inside, hi]
      rfl
    obtain ⟨hstir, hlines⟩ := goes (.enter hi')
    exact seat h.like hstir hlines rfl
  | time hi =>
    obtain ⟨hstir, hlines⟩ := goes (.time (h.inside_some hi))
    rw [h.like.now]
    exact seat h.like hstir hlines rfl
  | tag hi =>
    obtain ⟨hstir, hlines⟩ := goes (.tag (h.inside_some hi))
    obtain ⟨htag, hlike⟩ := h.like.tagOf t
    rw [htag]
    exact seat hlike hstir hlines rfl
  | encode hi => exact h.wait hi rfl rfl
  | work hi hj => exact h.wait hi rfl rfl

/-- The record is complete, and the other system makes up for what it has left out. -/
theorem record (h : Mirrors e T s w w' ls all) (hb : (w.booth e).Serves s' es) {ev : Event}
    {r : Except IoError Unit} (hp : (w.thread t).stage.pending? = some (e, k, name))
    (hi : (w.booth e).inside = some (t, .work ev (.done r))) :
    Mirrored e T s ((w.vacate e).resume t (r.mapError .sink)) w' ls (.record t k name)
      (all ++ [ev]) := by
  obtain ⟨-, hs⟩ := h.emitting hp
  have hs' : (w'.thread t).stage = .emitting e k name := by
    rw [← h.like.thread t]
    exact hs
  have hencode : w'.Part t e k name _ := .encode (h.inside_some hi)
  have hlines := h.lines.part (h.pending hp) hencode
  obtain ⟨n, r', w₂, htrail, hlines, hlike, hdone⟩ := hlines.exists_done hs'
    (by rw [World.seat, booth_setBooth_self])
  have hs₂ : (w₂.thread t).stage = .emitting e k name := by
    rw [← hlike.thread t]
    exact hs'
  have hp₂ : (w₂.thread t).stage.pending? = some (e, k, name) := by
    rw [hs₂]
    rfl
  obtain rfl : r = .ok () := (hb.keeps.vacate hi).2
  obtain rfl : r' = .ok () := (hlines.keeps.vacate hdone).2
  have hw : (w.vacate e).resume t ((Except.ok () : Except IoError Unit).mapError .sink) =
      (w.vacate e).finish t .ok := resume_emitting (w := w.vacate e) hs _
  have hw₂ : (w₂.vacate e).resume t ((Except.ok () : Except IoError Unit).mapError .sink) =
      (w₂.vacate e).finish t .ok := resume_emitting (w := w₂.vacate e) hs₂ _
  have hrecord := (hlines.parts t (n + 1)).record hp₂ hdone
  rw [List.append_assoc] at hrecord
  refine ⟨.replicate (n + 1) (.part t) ++ [.record t k name], _,
    .append (.cons (.part (h.pending hp) hencode) htrail) (.cons (.record hp₂ hdone) (.nil _)),
    ?_, ?_, hrecord, ?_⟩
  · simp [Label.outward]
  · rw [hw, hw₂]
    have hvacate : Like e (w.vacate e) (w₂.vacate e) := (Like.setBooth w _).trans
      (h.like.trans ((Like.setBooth w' _).symm.trans (hlike.trans (Like.setBooth w₂ _).symm)))
    exact hvacate.setStage t _
  · rw [hw, hw₂]
    have hempty (w : World V (Hall W)) : (((w.vacate e).finish t .ok).booth e).inside = none := by
      change ((w.vacate e).booth e).inside = none
      rw [vacate, booth_setBooth_self]
      rfl
    rw [hempty, hempty]
    rfl

/-- Every step is mirrored. -/
theorem stir (h : Mirrors e T s w w' ls all) (hb : (w.booth e).Serves s' es) (hm : w.Stir l w₁)
    (hc : ∀ t call, l.begun? = some (t, call) → t ∈ T ∧ call.Emits e) :
    Mirrored e T s w₁ w' ls l (all ++ w.completed e l) := by
  cases hm with
  | @begin t call w₁ hbegin =>
    obtain ⟨hT, hemits⟩ := hc t call rfl
    obtain ⟨w₁', hbegin', hlike⟩ := h.like.begin hbegin
    rw [completed_of_quiet rfl, List.append_nil]
    exact h.same hlike (booth_of_outer (outer_begin hbegin))
      (booth_of_outer (outer_begin hbegin')) (.begin hbegin') (h.lines.begin hemits hT hbegin')
  | collect hcollect =>
    obtain ⟨w₁', hcollect', hlike⟩ := h.like.collect hcollect
    rw [completed_of_quiet rfl, List.append_nil]
    exact h.same hlike (booth_of_outer (outer_collect hcollect))
      (booth_of_outer (outer_collect hcollect')) (.collect hcollect') (h.lines.collect hcollect')
  | @act t _ pick hp ha =>
    rw [advance_of_emitter (h.stages t) hp] at ha
    contradiction
  | @rouse t _ hr =>
    rw [rouse_of_emitter (h.stages t)] at hr
    contradiction
  | tick hn =>
    rw [h.like.elapsed] at hn
    rw [completed_of_quiet rfl, List.append_nil]
    exact h.same (h.like.tick _) rfl rfl (.tick hn) (h.lines.tick hn)
  | part hp hpart =>
    obtain ⟨rfl, _⟩ := h.emitting hp
    rw [completed_of_quiet rfl, List.append_nil]
    exact h.part hp hpart
  | record hp hi =>
    obtain ⟨rfl, _⟩ := h.emitting hp
    rw [completed_record hi]
    exact h.record hb hp hi

end Mirrors

end World

end LockTrace
