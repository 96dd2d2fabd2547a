import LockTrace.Proofs.Threads.Calm

namespace LockTrace

variable {V W : Type}

namespace Label

instance : DecidablePred (Silent (V := V)) := fun l =>
  match l with
  | .part _ | .record .. | .tick => .isTrue trivial
  | .begin .. | .collect .. | .act _ | .rouse _ => .isFalse id

/-- What is left of some steps if those of emissions, and of the clock, are forgotten. -/
def loud (ls : List (Label V)) : List (Label V) := ls.filter fun l => ¬ l.Silent

/-- The step is none that a thread has chosen: a sleeper wakes without being called, or the clock
goes on. -/
def Unbidden : Label V → Prop
  | .rouse _ | .tick => True
  | _ => False

theorem loud_append (ls ls' : List (Label V)) : loud (ls ++ ls') = loud ls ++ loud ls' :=
  List.filter_append ..

theorem loud_singleton (l : Label V) : loud [l] = if l.Silent then [] else [l] := by
  by_cases hl : l.Silent <;> simp [loud, hl]

theorem loud_of_silent {ls : List (Label V)} (h : ∀ l ∈ ls, l.Silent) : loud ls = [] := by
  refine List.filter_eq_nil_iff.mpr fun l hl => ?_
  simpa using h l hl

/-- Silent steps answer nothing. -/
theorem answers_loud (t : ThreadId) (ls : List (Label V)) :
    (loud ls).filterMap (answer? t) = ls.filterMap (answer? t) := by
  induction ls with
  | nil => rfl
  | cons l ls ih =>
    by_cases hl : l.Silent
    · have hn : l.answer? t = none := by
        cases l
        all_goals first
        | rfl
        | exact hl.elim
      rw [loud, List.filter_cons_of_neg (by simpa using hl), ← loud, ih,
        List.filterMap_cons_none hn]
    · rw [loud, List.filter_cons_of_pos (by simpa using hl), ← loud, List.filterMap_cons,
        List.filterMap_cons, ih]

end Label

/-- What threads may ask for after the answers that they have got so far. -/
abbrev Program (V : Type) := ThreadId → List (Answer V) → Call V → Prop

/-- After some steps, the next one begins no call that the program does not make. -/
def Program.Allows (prog : Program V) (ls : List (Label V)) (l : Label V) : Prop :=
  ∀ t call, l.begun? = some (t, call) → prog t (ls.filterMap (Label.answer? t)) call

/-- The steps that a system does that runs a program. -/
inductive Execution {S : Type} (move : S → Label V → S → Prop) (prog : Program V) (s₀ : S) :
    List (Label V) → S → Prop
  | start : Execution move prog s₀ [] s₀
  | step {ls : List (Label V)} {s s' : S} {l : Label V} (h : Execution move prog s₀ ls s)
      (hp : prog.Allows ls l) (hm : move s l s') : Execution move prog s₀ (ls ++ [l]) s'

/-- No thread can do anything but wake without being called. -/
def Stuck {S : Type} (move : S → Label V → S → Prop) (prog : Program V) (ls : List (Label V))
    (s : S) : Prop :=
  ∀ l s', move s l s' → prog.Allows ls l → l.Unbidden

/-- Nothing goes on any more, and yet a call is not over. -/
def Bare.Deadlocked (b : Bare V) (prog : Program V) (ls : List (Label V)) : Prop :=
  Stuck Bare.Move prog ls b ∧ ∃ t, (b.thread t).stage ≠ .idle

theorem Program.allows_loud {prog : Program V} {ls : List (Label V)} {l : Label V} :
    prog.Allows (Label.loud ls) l ↔ prog.Allows ls l := by
  simp only [Allows, Label.answers_loud]

theorem Program.allows_of_silent {prog : Program V} {ls : List (Label V)} {l : Label V}
    (h : l.Silent) : prog.Allows ls l := by
  cases l with
  | part | record | tick => exact nofun
  | begin | collect | act | rouse => exact h.elim

namespace World

variable [Writer W] {w w' w₀ : World V (Hall W)} {t : ThreadId} {e : EmitterId} {k : Kind}
  {name : LockName} {prog : Program V} {ls : List (Label V)}

/-- Nothing goes on any more, and yet a call is not over. -/
def Deadlocked (w : World V (Hall W)) (prog : Program V) (ls : List (Label V)) : Prop :=
  Stuck Stir prog ls w ∧ ∃ t, (w.thread t).stage ≠ .idle

/-- A step of an emission, or of the clock, that leaves all else as it is. -/
def Hush (w : World V (Hall W)) (l : Label V) (w' : World V (Hall W)) : Prop :=
  w.Stir l w' ∧ l.Silent ∧ w'.bare = w.bare

theorem execution_silent {ls' : List (Label V)} (h : Execution Stir prog w₀ ls w)
    (hs : ∀ l ∈ ls', l.Silent) (ht : Trail Stir w ls' w') :
    Execution Stir prog w₀ (ls ++ ls') w' := by
  induction ht generalizing ls with
  | nil =>
    rw [List.append_nil]
    exact h
  | @cons _ _ _ l ls' hm _ ih =>
    obtain ⟨hl, hls⟩ := List.forall_mem_cons.mp hs
    have ih := ih (h.step (Program.allows_of_silent hl) hm) hls
    rw [List.append_assoc] at ih
    exact ih

section Settle

/-- The threads that have no record to make afterwards aside, all stand where they stood. -/
def Thins (w w' : World V (Hall W)) : Prop :=
  ∀ t, (w'.thread t).stage.pending? = none ∨ w'.thread t = w.thread t

omit [Writer W] in
theorem Thins.trans {w₁ : World V (Hall W)} (h : w.Thins w₁) (h' : w₁.Thins w') :
    w.Thins w' := by
  intro t
  rcases h' t with hn | hw'
  · exact .inl hn
  · rcases h t with hn | hw
    · exact .inl (hw' ▸ hn)
    · exact .inr (hw'.trans hw)

/-- A record that is completed is one less to make, and the sink is free. -/
theorem done_settle (hp : (w.thread t).stage.pending? = some (e, k, name)) (j : Job) :
    w.Thins (w.settle t e j) ∧ ((w.settle t e j).thread t).stage.pending? = none ∧
      ((w.settle t e j).booth e).inside = none := by
  have hp' : ((w.setBooth e ((w.booth e).close j)).thread t).stage.pending? =
      some (e, k, name) := hp
  have hn : ((w.settle t e j).thread t).stage.pending? = none := pending?_resume hp' _
  refine ⟨fun t' => ?_, hn, ?_⟩
  · by_cases ht : t' = t
    · exact .inl (ht ▸ hn)
    · exact .inr (thread_resume_ne hp' (Ne.symm ht) _)
  · rw [settle, booth, recorder_resume hp', ← booth, booth_setBooth_self]
    rfl

theorem done_settle_tagOf (hp : (w.thread t).stage.pending? = some (e, k, name)) (j : Job) :
    w.Thins ((w.tagOf t).2.settle t e j) ∧
      (((w.tagOf t).2.settle t e j).thread t).stage.pending? = none ∧
      (((w.tagOf t).2.settle t e j).booth e).inside = none := by
  obtain ⟨hw, hn, hb⟩ := done_settle (w := (w.tagOf t).2) (by rw [stage_tagOf, hp]) j
  refine ⟨fun t' => ?_, hn, hb⟩
  by_cases ht : t' = t
  · exact .inl (ht ▸ hn)
  · exact (hw t').imp_right fun hw' => hw'.trans (thread_tagOf_ne w (Ne.symm ht))

/-- A thread makes its record if no other is in the sink. -/
theorem exists_done (hp : (w.thread t).stage.pending? = some (e, k, name))
    (hb : ∀ t' task, (w.booth e).inside = some (t', task) → t' = t) :
    ∃ w', w.Reaches w' ∧ w.Thins w' ∧ (w'.thread t).stage.pending? = none ∧
      (w'.booth e).inside = none := by
  cases hin : (w.booth e).inside with
  | none => exact ⟨_, reaches_enter hp hin, done_settle_tagOf hp _⟩
  | some x =>
    obtain ⟨t', task⟩ := x
    obtain rfl := hb t' task hin
    cases task with
    | time => exact ⟨_, reaches_time hp hin, done_settle_tagOf hp _⟩
    | tag => exact ⟨_, reaches_tag hp hin, done_settle_tagOf hp _⟩
    | encode => exact ⟨_, reaches_encode hp hin, done_settle hp _⟩
    | work => exact ⟨_, reaches_settle hp hin, done_settle hp _⟩

theorem Reaches.trans {w₁ : World V (Hall W)} (h : w.Reaches w₁) (h' : w₁.Reaches w') :
    w.Reaches w' := by
  obtain ⟨ls, hs, ht⟩ := h
  obtain ⟨ls', hs', ht'⟩ := h'
  refine ⟨ls ++ ls', fun l hl => ?_, ht.append ht'⟩
  rcases List.mem_append.mp hl with hl | hl
  · exact hs l hl
  · exact hs' l hl

theorem Calm.trail (h : w.Calm) {ls : List (Label V)} (hs : ∀ l ∈ ls, l.Silent)
    (ht : Trail Stir w ls w') : w'.Calm ∧ w'.bare = w.bare ∧ Trail Hush w ls w' := by
  induction ht with
  | nil w => exact ⟨h, rfl, .nil w⟩
  | cons hm _ ih =>
    obtain ⟨hl, hls⟩ := List.forall_mem_cons.mp hs
    obtain ⟨h₁, hb⟩ := h.silent hm hl
    obtain ⟨h', hb', ht'⟩ := ih h₁ hls
    exact ⟨h', hb'.trans hb, .cons ⟨hm, hl, hb⟩ ht'⟩

theorem Calm.reaches (h : w.Calm) (hr : w.Reaches w') : w'.Calm := by
  obtain ⟨ls, hs, ht⟩ := hr
  exact (h.trail hs ht).1

/-- Any one record can be completed. Should another thread be in the sink, it is first. -/
theorem Calm.exists_done (h : w.Calm) (t : ThreadId) :
    ∃ w', w.Reaches w' ∧ w.Thins w' ∧ (w'.thread t).stage.pending? = none := by
  cases hp : (w.thread t).stage.pending? with
  | none => exact ⟨w, .refl w, fun _ => .inr rfl, hp⟩
  | some x =>
    obtain ⟨e, k, name⟩ := x
    cases hin : (w.booth e).inside with
    | none =>
      obtain ⟨w', hr, hw, hn, _⟩ := World.exists_done hp (by rw [hin]; nofun)
      exact ⟨w', hr, hw, hn⟩
    | some x =>
      obtain ⟨t₁, task⟩ := x
      obtain ⟨k₁, name₁, hp₁⟩ := h.inside e t₁ task hin
      obtain ⟨w₁, hr₁, hw₁, _, hin₁⟩ :=
        World.exists_done hp₁ (by rw [hin]; rintro _ _ ⟨⟩; rfl)
      rcases hw₁ t with hn | hw
      · exact ⟨w₁, hr₁, hw₁, hn⟩
      · obtain ⟨w', hr, hw', hn, _⟩ := World.exists_done (hw ▸ hp) (by rw [hin₁]; nofun)
        exact ⟨w', hr₁.trans hr, hw₁.trans hw', hn⟩

/-- All records can be completed, one after the other. -/
theorem Calm.exists_settled (h : w.Calm) : ∃ w', w.Reaches w' ∧ w'.Settled := by
  obtain ⟨T, hT⟩ := h.few
  induction T generalizing w with
  | nil => exact ⟨w, .refl w, fun t => by_contra fun hn => List.not_mem_nil (hT t hn)⟩
  | cons t T ih =>
    obtain ⟨w₁, hr, hw₁, hn⟩ := h.exists_done t
    have hT₁ : ∀ t', (w₁.thread t').stage.pending? ≠ none → t' ∈ T := by
      intro t' hp
      rcases hw₁ t' with hn' | hw
      · exact absurd hn' hp
      · refine (List.mem_cons.mp (hT t' (hw ▸ hp))).resolve_left ?_
        rintro rfl
        exact hp hn
    obtain ⟨w', hr', hs⟩ := ih (h.reaches hr) hT₁
    exact ⟨w', hr.trans hr', hs⟩

end Settle

section Simulation

variable {b : Bare V}

/-- Where no record is to be made, threads can take any step that they take without tracing. -/
theorem Calm.exists_stir (h : w.Calm) (hs : w.Settled) {l : Label V} (hm : w.bare.Move l b)
    (hc : ∀ t call, l.begun? = some (t, call) → call.Plain) :
    ∃ w', w.Stir l w' ∧ ¬ l.Silent ∧ w'.bare = b := by
  cases hm with
  | begin hb =>
    rw [← bare_begin (hc _ _ rfl)] at hb
    obtain ⟨w', hw, rfl⟩ := Option.map_eq_some_iff.mp hb
    exact ⟨w', .begin hw, id, rfl⟩
  | @collect t _ _ hb =>
    rw [← bare_collect (hs t) (h.plain t)] at hb
    obtain ⟨⟨a, w'⟩, hw, he⟩ := Option.map_eq_some_iff.mp hb
    cases he
    exact ⟨w', .collect hw, id, rfl⟩
  | @act t _ pick hb =>
    rw [← bare_advance pick (hs t) (h.plain t)] at hb
    obtain ⟨w', hw, rfl⟩ := Option.map_eq_some_iff.mp hb
    exact ⟨w', .act pick (hs t) hw, id, rfl⟩
  | rouse hb =>
    rw [← bare_rouse] at hb
    obtain ⟨w', hw, rfl⟩ := Option.map_eq_some_iff.mp hb
    exact ⟨w', .rouse hw, id, rfl⟩

variable (hprog : ∀ t as call, prog t as call → call.Plain)
include hprog

/-- A run that is traced is a run without tracing as soon as its records are forgotten. -/
theorem execution_bare (h₀ : w₀.Calm) (h : Execution Stir prog w₀ ls w) :
    w.Calm ∧ Execution Bare.Move prog w₀.bare (Label.loud ls) w.bare := by
  induction h with
  | start => exact ⟨h₀, .start⟩
  | @step ls w w' l _ hp hm ih =>
    obtain ⟨hw, hb⟩ := ih
    rw [Label.loud_append]
    by_cases hl : l.Silent
    · obtain ⟨hw', he⟩ := hw.silent hm hl
      rw [Label.loud_singleton, if_pos hl, List.append_nil, he]
      exact ⟨hw', hb⟩
    · obtain ⟨hw', hm'⟩ := hw.loud hm hl fun t call hc => hprog _ _ _ (hp t call hc)
      rw [Label.loud_singleton, if_neg hl]
      exact ⟨hw', hb.step (Program.allows_loud.mpr hp) hm'⟩

/-- A run without tracing is what is left of one that is traced. -/
theorem exists_execution (h₀ : w₀.Calm) (hs₀ : w₀.Settled)
    (h : Execution Bare.Move prog w₀.bare ls b) :
    ∃ ls' w, Execution Stir prog w₀ ls' w ∧ Label.loud ls' = ls ∧ w.bare = b ∧ w.Settled := by
  induction h with
  | start => exact ⟨[], w₀, .start, rfl, rfl, hs₀⟩
  | @step ls b b' l _ hp hm ih =>
    obtain ⟨ls', w, hw, rfl, rfl, hs⟩ := ih
    have hp' := Program.allows_loud.mp hp
    have hplain (t : ThreadId) (call : Call V) (hc : l.begun? = some (t, call)) : call.Plain :=
      hprog _ _ _ (hp' t call hc)
    have hcalm := (execution_bare hprog h₀ hw).1
    obtain ⟨w₁, hm₁, hl, rfl⟩ := hcalm.exists_stir hs hm hplain
    have hcalm₁ := (hcalm.loud hm₁ hl hplain).1
    obtain ⟨w₂, ⟨ls₂, hsilent, ht⟩, hs₂⟩ := hcalm₁.exists_settled
    refine ⟨ls' ++ [l] ++ ls₂, w₂, execution_silent (hw.step hp' hm₁) hsilent ht, ?_,
      (hcalm₁.trail hsilent ht).2.1, hs₂⟩
    rw [Label.loud_append, Label.loud_append, Label.loud_of_silent hsilent, List.append_nil,
      Label.loud_singleton, if_neg hl]

omit hprog

/-- Where no record is to be made, threads can take just the steps that they can take without
tracing. -/
theorem Calm.exists_stir_iff (h : w.Calm) (hs : w.Settled) {l : Label V} (hl : ¬ l.Silent)
    (hc : ∀ t call, l.begun? = some (t, call) → call.Plain) :
    (∃ w', w.Stir l w') ↔ ∃ b, w.bare.Move l b := by
  constructor
  · rintro ⟨w', hm⟩
    exact ⟨w'.bare, (h.loud hm hl hc).2⟩
  · rintro ⟨b, hm⟩
    obtain ⟨w', hm', _⟩ := h.exists_stir hs hm hc
    exact ⟨w', hm'⟩

/-- A record that is to be made gives some thread something to do. -/
theorem Calm.exists_part (h : w.Calm) (hp : (w.thread t).stage.pending? = some (e, k, name)) :
    ∃ l w', w.Stir l w' ∧ l.Silent ∧ ¬ l.Unbidden := by
  cases hin : (w.booth e).inside with
  | none => exact ⟨.part t, _, .part hp (.enter hin), trivial, id⟩
  | some x =>
    obtain ⟨t₁, task⟩ := x
    obtain ⟨k₁, name₁, hp₁⟩ := h.inside e t₁ task hin
    cases task with
    | time => exact ⟨.part t₁, _, .part hp₁ (.time hin), trivial, id⟩
    | tag => exact ⟨.part t₁, _, .part hp₁ (.tag hin), trivial, id⟩
    | encode => exact ⟨.part t₁, _, .part hp₁ (.encode hin), trivial, id⟩
    | work ev j =>
      cases j with
      | done r => exact ⟨.record t₁ k₁ name₁, _, .record hp₁ hin, trivial, id⟩
      | write | flush => exact ⟨.part t₁, _, .part hp₁ (.work hin nofun), trivial, id⟩

theorem stage_bare_eq_idle {s : Stage V} : s.bare = .idle ↔ s = .idle := by
  cases s with
  | waking c g resume => cases resume <;> simp [Stage.bare]
  | _ => simp [Stage.bare]

/-- Sinks cause no deadlock and hide none. -/
theorem Calm.deadlocked_iff (h : w.Calm) (hprog : ∀ t as call, prog t as call → call.Plain) :
    w.Deadlocked prog ls ↔ w.Settled ∧ w.bare.Deadlocked prog (Label.loud ls) := by
  have hbusy : (∃ t, (w.thread t).stage ≠ .idle) ↔ ∃ t, (w.bare.thread t).stage ≠ .idle :=
    exists_congr fun t => not_congr stage_bare_eq_idle.symm
  have hplain {l : Label V} (hp : prog.Allows ls l) (t : ThreadId) (call : Call V)
      (hc : l.begun? = some (t, call)) : call.Plain := hprog _ _ _ (hp t call hc)
  constructor
  · rintro ⟨hstuck, ht⟩
    have hs : w.Settled := by
      intro t
      cases hp : (w.thread t).stage.pending? with
      | none => rfl
      | some x =>
        obtain ⟨l, w', hm, hl, hn⟩ := h.exists_part hp
        exact (hn (hstuck l w' hm (Program.allows_of_silent hl))).elim
    refine ⟨hs, fun l b hm hp => ?_, hbusy.mp ht⟩
    have hp' := Program.allows_loud.mp hp
    obtain ⟨w', hm', _⟩ := h.exists_stir hs hm (hplain hp')
    exact hstuck l w' hm' hp'
  · rintro ⟨hs, hstuck, ht⟩
    refine ⟨fun l w' hm hp => ?_, hbusy.mpr ht⟩
    by_cases hl : l.Silent
    · cases hm with
      | begin | collect | act | rouse => exact hl.elim
      | part hpending | record hpending =>
        rw [hs] at hpending
        contradiction
      | tick => trivial
    · exact hstuck l w'.bare (h.loud hm hl (hplain hp)).2 (Program.allows_loud.mpr hp)

end Simulation

/-- Traced threads do what they do without tracing, and get the same answers. Their records can
always be completed while everything else stays as it is, and they are deadlocked just if they are
so without tracing. -/
theorem tracing_transparent (hprog : ∀ t as call, prog t as call → call.Plain)
    (h₀ : ∀ t, w₀.thread t = {}) (hb : ∀ e, (w₀.booth e).Opens) :
    (∀ ls w, Execution Stir prog w₀ ls w →
      Execution Bare.Move prog w₀.bare (Label.loud ls) w.bare ∧
      (∃ ls' w', Trail Hush w ls' w' ∧ w'.Settled) ∧
      (w.Settled → ∀ l, ¬ l.Silent → prog.Allows ls l →
        ((∃ w', w.Stir l w') ↔ ∃ b, w.bare.Move l b)) ∧
      (w.Deadlocked prog ls ↔ w.Settled ∧ w.bare.Deadlocked prog (Label.loud ls))) ∧
    ∀ ls b, Execution Bare.Move prog w₀.bare ls b →
      ∃ ls' w, Execution Stir prog w₀ ls' w ∧ Label.loud ls' = ls ∧ w.bare = b ∧ w.Settled := by
  have hcalm : w₀.Calm := .start h₀ hb
  have hsettled : w₀.Settled := fun t => by
    rw [h₀ t]
    rfl
  refine ⟨fun ls w h => ?_, fun ls b h => exists_execution hprog hcalm hsettled h⟩
  obtain ⟨hw, hbare⟩ := execution_bare hprog hcalm h
  obtain ⟨w', ⟨ls', hsilent, ht⟩, hs⟩ := hw.exists_settled
  refine ⟨hbare, ⟨ls', w', (hw.trail hsilent ht).2.2, hs⟩, fun hs l hl hp => ?_,
    hw.deadlocked_iff hprog⟩
  exact hw.exists_stir_iff hs hl fun t call hc => hprog _ _ _ (hp t call hc)

/-- One thread acquires a mutex, and then wants to acquire it once more. -/
def reentrant : Program Unit := fun t as call =>
  t = 0 ∧ as.length ≤ 1 ∧ call = .lock .waits 0 0 "L" as.length

def reentrantSteps : List (Label Unit) :=
  [.begin 0 (.lock .waits 0 0 "L" 0), .act 0, .collect 0 .ok, .begin 0 (.lock .waits 0 0 "L" 1)]

/-- It waits for itself. -/
def reentrantEnd : Bare Unit :=
  let name : LockName := ⟨"L", by decide⟩
  let b := ((lobby.bare.setStage 0 (.acquiring .waits 0 name 0)).take 0 0).keep 0 0 0
  ((b.finish 0 .ok).setStage 0 .idle).setStage 0 (.acquiring .waits 0 name 1)

theorem execution_reentrant :
    Execution Bare.Move reentrant lobby.bare reentrantSteps reentrantEnd := by
  have h₀ : Execution Bare.Move reentrant lobby.bare [] lobby.bare := .start
  have h₁ := h₀.step (l := .begin 0 (.lock .waits 0 0 "L" 0))
    (by rintro _ _ ⟨⟩; exact ⟨rfl, Nat.zero_le 1, rfl⟩) (.begin rfl)
  have h₂ := h₁.step (l := .act 0) nofun (.act List.head? rfl)
  have h₃ := h₂.step (l := .collect 0 .ok) nofun (.collect rfl)
  exact h₃.step (l := .begin 0 (.lock .waits 0 0 "L" 1))
    (by rintro _ _ ⟨⟩; exact ⟨rfl, Nat.le_refl 1, rfl⟩) (.begin rfl)

theorem deadlocked_reentrant : reentrantEnd.Deadlocked reentrant reentrantSteps := by
  have hself : (reentrantEnd.thread 0).stage = .acquiring .waits 0 ⟨"L", by decide⟩ 1 := rfl
  have hheld : (reentrantEnd.mutex 0).holder = some 0 := rfl
  have hidle (t : ThreadId) (ht : t ≠ 0) : (reentrantEnd.thread t).stage = .idle := by
    simp only [reentrantEnd, Bare.finish, Bare.setStage, Bare.keep, Bare.setGuards, Bare.take,
      Bare.setMutex, Bare.setThread, Function.update_of_ne ht]
    rfl
  have hbusy : (reentrantEnd.thread 0).stage ≠ .idle := by
    intro h
    rw [hself] at h
    contradiction
  refine ⟨fun l b' hm hp => ?_, 0, hbusy⟩
  cases hm with
  | @begin t call _ hb =>
    obtain ⟨rfl, _, rfl⟩ := hp t call rfl
    simp only [Bare.begin, hself] at hb
    contradiction
  | @collect t a _ hb =>
    by_cases ht : t = 0
    · subst ht
      simp only [Bare.collect, hself] at hb
      contradiction
    · simp only [Bare.collect, hidle t ht] at hb
      contradiction
  | @act t _ pick hb =>
    by_cases ht : t = 0
    · subst ht
      simp only [Bare.advance, hself, hheld] at hb
      contradiction
    · simp only [Bare.advance, hidle t ht] at hb
      contradiction
  | rouse => trivial

/-- Two threads want a mutex, of which one does not wait for it. -/
def rivals : Program Unit := fun t _ call =>
  t = 0 ∧ call = .lock .waits 0 0 "L" 0 ∨ t = 1 ∧ call = .lock .tries 0 0 "L" 0

/-- The one gets it poisoned. Before it has given it back, the other one finds it held. -/
def rivalsSteps : List (Label Unit) :=
  [.begin 0 (.lock .waits 0 0 "L" 0), .act 0, .begin 1 (.lock .tries 0 0 "L" 0), .act 1,
    .collect 1 .notHeld, .act 0, .collect 0 (.failed (.poisoned ⟨"L", by decide⟩))]

def taintedLobby : World Unit (Hall Faulty) :=
  { lobby with mutexes := ⟨{ value := (), poisons := true, poisoned := true }, []⟩ }

theorem exists_execution_rivals :
    ∃ b, Execution Bare.Move rivals taintedLobby.bare rivalsSteps b := by
  have h₀ : Execution Bare.Move rivals taintedLobby.bare [] taintedLobby.bare := .start
  have h₁ := h₀.step (l := .begin 0 (.lock .waits 0 0 "L" 0))
    (by rintro _ _ ⟨⟩; exact .inl ⟨rfl, rfl⟩) (.begin rfl)
  have h₂ := h₁.step (l := .act 0) nofun (.act List.head? rfl)
  have h₃ := h₂.step (l := .begin 1 (.lock .tries 0 0 "L" 0))
    (by rintro _ _ ⟨⟩; exact .inr ⟨rfl, rfl⟩) (.begin rfl)
  have h₄ := h₃.step (l := .act 1) nofun (.act List.head? rfl)
  have h₅ := h₄.step (l := .collect 1 .notHeld) nofun (.collect rfl)
  have h₆ := h₅.step (l := .act 0) nofun (.act List.head? rfl)
  exact ⟨_, h₆.step (l := .collect 0 (.failed (.poisoned ⟨"L", by decide⟩))) nofun
    (.collect rfl)⟩

/-- A thread that waits for itself does so with tracing as well, and a thread that has got a
poisoned mutex keeps others from getting it. -/
theorem tracing_transparent_reentrant : (∃ ls w, Execution Stir reentrant lobby ls w ∧
      Label.loud ls = reentrantSteps ∧ w.bare = reentrantEnd ∧ w.Deadlocked reentrant ls) ∧
    ∃ ls w, Execution Stir rivals taintedLobby ls w ∧ Label.loud ls = rivalsSteps := by
  constructor
  · have hprog (t : ThreadId) (as : List (Answer Unit)) (call : Call Unit)
        (h : reentrant t as call) : call.Plain := by
      obtain ⟨_, _, rfl⟩ := h
      simp [Call.Plain]
    have h₀ (t : ThreadId) : lobby.thread t = {} := rfl
    have hb (e : EmitterId) : (lobby.booth e).Opens := ⟨trivial, rfl, rfl⟩
    obtain ⟨htraced, hbare⟩ := tracing_transparent hprog h₀ hb
    obtain ⟨ls, w, h, hls, hw, hs⟩ := hbare _ _ execution_reentrant
    refine ⟨ls, w, h, hls, hw, (htraced ls w h).2.2.2.mpr ⟨hs, ?_⟩⟩
    rw [hls, hw]
    exact deadlocked_reentrant
  · have hprog (t : ThreadId) (as : List (Answer Unit)) (call : Call Unit)
        (h : rivals t as call) : call.Plain := by
      obtain ⟨_, rfl⟩ | ⟨_, rfl⟩ := h <;> simp [Call.Plain]
    have h₀ (t : ThreadId) : taintedLobby.thread t = {} := rfl
    have hb (e : EmitterId) : (taintedLobby.booth e).Opens := ⟨trivial, rfl, rfl⟩
    obtain ⟨b, hexec⟩ := exists_execution_rivals
    obtain ⟨ls, w, h, hls, -⟩ := (tracing_transparent hprog h₀ hb).2 _ _ hexec
    exact ⟨ls, w, h, hls⟩

end World

end LockTrace
