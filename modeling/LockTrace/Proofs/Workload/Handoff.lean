import LockTrace.Proofs.Workload.Standstill
import LockTrace.Workload.Queue

namespace LockTrace.Queue

open Function (update update_self update_of_ne)
open Plot (Turn Custody)

/-- The name under which the lock is recorded. -/
def name : LockName := ⟨lockName, by decide⟩

/-- The hold of the lock. -/
def pass : Guard := ⟨0, name, 0⟩

/-- Who is inside keeps the lock. -/
def keeps : Place → Slot → Option Guard
  | .producer (.telling _) | .producer (.pushing _) | .producer (.unlocking _)
  | .producer .closing | .producer .unlockingLast => only pass
  | .consumer .waiting | .consumer .looking | .consumer (.popping _)
  | .consumer (.processing _) | .consumer .again | .consumer .leaving
  | .consumer (.failing _) => only pass
  | _ => fun _ => none

theorem keeps_eq_some {s : Place} {slot : Slot} {g : Guard} (h : keeps s slot = some g) :
    slot = 0 ∧ g = pass := by
  rw [keeps.eq_def] at h
  split at h
  all_goals first | exact only_eq_some h | contradiction

/-- No worker comes to a place where something has failed. -/
def Sound : Place → Prop
  | .producer (.ended r) | .consumer (.ended r) => r = .ok ()
  | .consumer (.failing _) => False
  | _ => True

theorem keeps_toward (items item : Nat) :
    keeps (.producer (.toward items item)) = fun _ => none := by
  unfold Producer.toward
  split <;> rfl

theorem sound_toward (items item : Nat) : Sound (.producer (.toward items item)) := by
  unfold Producer.toward
  split <;> trivial

def routine (items : Nat) : Routine Store Place where
  emitter := 0
  mutexOf _ := 0
  keeps _ := keeps
  said _ s _ := Sound s
  script := script items
  allows t s := by
    cases s with
    | producer q =>
      cases q with
      | resting | telling => exact ⟨rfl, fun _ _ => trivial⟩
      | tellingEnd => exact ⟨rfl, fun _ _ => rfl⟩
      | locking | lockingLast => exact ⟨rfl, rfl, name, by decide, rfl, fun _ _ => trivial⟩
      | pushing | closing => exact ⟨⟨pass, only_zero pass⟩, fun _ => ⟨rfl, fun _ _ => trivial⟩⟩
      | unlocking | unlockingLast =>
        exact ⟨pass, only_zero pass, (update_only pass).symm, fun _ _ => trivial⟩
      | calling item => exact fun _ => ⟨keeps_toward _ _, fun _ _ => sound_toward _ _⟩
      | callingAll => exact fun _ => ⟨rfl, fun _ _ => trivial⟩
      | ended => exact fun _ => rfl
    | consumer c =>
      cases c with
      | locking => exact ⟨rfl, rfl, name, by decide, rfl, fun _ _ => trivial⟩
      | waiting => exact ⟨pass, only_zero pass, rfl, rfl, fun _ _ _ => trivial⟩
      | looking =>
        refine ⟨⟨pass, only_zero pass⟩, fun v => ?_⟩
        rcases v with ⟨_ | ⟨item, rest⟩, _ | _⟩ <;> exact ⟨rfl, fun _ _ => trivial⟩
      | popping => exact ⟨⟨pass, only_zero pass⟩, fun _ => ⟨rfl, fun _ _ => trivial⟩⟩
      | processing => exact ⟨rfl, fun _ _ => trivial⟩
      | tellingEnd => exact ⟨rfl, fun _ _ => rfl⟩
      | again | leaving =>
        exact ⟨pass, only_zero pass, (update_only pass).symm, fun _ _ => trivial⟩
      | failing => exact ⟨pass, only_zero pass, (update_only pass).symm, fun _ => False.elim⟩
      | ended => exact fun _ => rfl
  through t s slot g hg := by rw [(keeps_eq_some hg).2]; rfl

theorem modest (items : Nat) : (routine items).Modest where
  one t s slot slot' g g' hg hg' := (keeps_eq_some hg).1.trans (keeps_eq_some hg').1.symm
  bare t s e m label slot next hc slot' := by
    cases s with
    | producer q =>
      cases q with
      | locking | lockingLast => rfl
      | resting | telling | pushing | unlocking | calling | closing | unlockingLast | callingAll
      | tellingEnd | ended => cases hc
    | consumer c =>
      cases c with
      | locking => rfl
      | waiting | looking | popping | processing | again | leaving | tellingEnd | failing
      | ended => cases hc
  busy t s parties next := by
    cases s with
    | producer q => cases q <;> exact nofun
    | consumer c => cases c <;> exact nofun

/-- What happens to the items: one is put into the store, or a consumer takes one out. -/
inductive Transfer
  | push (item : Nat)
  | pop (t : ThreadId) (item : Nat)
  deriving DecidableEq, Repr

/-- The transfer that a worker makes by a move from a stage. -/
def transfer? (b : Plot Store Place) (t : ThreadId) (st : Stage Store) : Option Transfer :=
  match st, b.place t with
  | .accessing .., .producer (.pushing item) => some (.push item)
  | .accessing .., .consumer (.popping _) => (b.value 0).items.head?.map (.pop t)
  | _, _ => none

theorem transfer?_of_quiet {b : Plot Store Place} {t : ThreadId} {st : Stage Store}
    (h : Plot.Quiet st) : transfer? b t st = none := by
  cases st with
  | accessing => exact h.elim
  | _ => rfl

/-- The items that were put into the store. -/
def pushed (xs : List Transfer) : List Nat := xs.filterMap fun
  | .push item => some item
  | .pop _ _ => none

/-- The items that were taken out, and by whom. -/
def popped (xs : List Transfer) : List (ThreadId × Nat) := xs.filterMap fun
  | .push _ => none
  | .pop t item => some (t, item)

theorem pushed_push (xs : List Transfer) (item : Nat) :
    pushed (xs ++ [.push item]) = pushed xs ++ [item] := by
  rw [pushed, List.filterMap_append]
  rfl

theorem pushed_pop (xs : List Transfer) (t : ThreadId) (item : Nat) :
    pushed (xs ++ [.pop t item]) = pushed xs := by
  rw [pushed, List.filterMap_append]
  exact List.append_nil _

theorem popped_push (xs : List Transfer) (item : Nat) :
    popped (xs ++ [.push item]) = popped xs := by
  rw [popped, List.filterMap_append]
  exact List.append_nil _

theorem popped_pop (xs : List Transfer) (t : ThreadId) (item : Nat) :
    popped (xs ++ [.pop t item]) = popped xs ++ [(t, item)] := by
  rw [popped, List.filterMap_append]
  rfl

theorem mem_popped_append {xs : List Transfer} {x : Option Transfer} {r : ThreadId × Nat}
    (h : r ∈ popped (xs ++ x.toList)) : r ∈ popped xs ∨ x = some (.pop r.1 r.2) := by
  cases x with
  | none => exact .inl (List.append_nil xs ▸ h)
  | some x =>
    cases x with
    | push item =>
      rw [Option.toList_some, popped_push] at h
      exact .inl h
    | pop t item =>
      rw [Option.toList_some, popped_pop] at h
      exact (List.mem_append.mp h).imp_right fun h => by rw [List.mem_singleton.mp h]

/-- The producer when so many items are in the store or were there, and the store is closed or
not. -/
def Making (items pushes : Nat) (finished : Bool) : Place → Progress Store → Prop
  | .producer (.pushing i), .done _ => i < items ∧ pushes = i + 1 ∧ finished = false
  | .producer (.resting i), _ | .producer (.locking i), _ | .producer (.telling i), _
  | .producer (.pushing i), _ => i < items ∧ pushes = i ∧ finished = false
  | .producer (.unlocking i), _ | .producer (.calling i), _ =>
    i < items ∧ pushes = i + 1 ∧ finished = false
  | .producer .closing, .done _ => pushes = items ∧ finished = true
  | .producer .lockingLast, _ | .producer .closing, _ => pushes = items ∧ finished = false
  | .producer .unlockingLast, _ | .producer .callingAll, _ | .producer .tellingEnd, _
  | .producer (.ended _), _ => pushes = items ∧ finished = true
  | .consumer _, _ => False

/-- The store is closed, and all sleepers were called after that. -/
def Past : Place → Progress Store → Prop
  | .producer .callingAll, .done _ | .producer .tellingEnd, _ | .producer (.ended _), _ => True
  | _, _ => False

/-- A consumer, as far as it knows what is in the store. No wait fails. -/
def Taking (store : Store) : Place → Progress Store → Prop
  | .consumer .waiting, .dozing => store.items = [] ∧ store.finished = false
  | .consumer .looking, .done (.value v) => v = store
  | .consumer (.popping i), .ahead => store.items.head? = some i
  | .consumer .leaving, _ | .consumer .tellingEnd, _ | .consumer (.ended _), _ =>
    store.finished = true ∧ store.items = []
  | .consumer (.failing _), _ | .producer _, _ => False
  | .consumer _, _ => True

/-- The item that a consumer has taken out and not told of yet. -/
def pending : Place → Progress Store → Option Nat
  | .consumer (.popping i), .done _ => some i
  | .consumer (.processing i), _ => some i
  | _, _ => none

/-- What is said of an item that a consumer has taken out. -/
def processing (r : ThreadId × Nat) : Notice :=
  say "processing" [("consumer", toString r.1), ("item", toString r.2)]

/-- The notices of that sort. -/
def processed (ns : List Notice) : List Notice := ns.filter (·.message = "processing")

/-- The item that the holder of the lock has taken out and not told of yet. -/
def outstanding (b : Plot Store Place) : Option (ThreadId × Nat) :=
  (b.holder 0).bind fun t => (pending (b.place t) (b.progress t)).map (t, ·)

/-- While items are handed over: those that were taken out and those in the store are all that were
put in, in order. Nobody sleeps once all sleepers were called, and whoever ended found the store
closed and empty. -/
structure Handoff (items : Nat) (xs : List Transfer) (b : Plot Store Place) : Prop where
  order : pushed xs = List.range (pushed xs).length
  flow : (popped xs).map (·.2) ++ (b.value 0).items = pushed xs
  producer : Making items (pushed xs).length (b.value 0).finished (b.place 0) (b.progress 0)
  consumer : ∀ t ≠ 0, Taking (b.value 0) (b.place t) (b.progress t)
  calm : ∀ t c, b.progress t = .parked c → c = 0 ∧ ¬ Past (b.place 0) (b.progress 0)
  told : ∃ ts, processed b.notices = ts.map processing ∧ popped xs = ts ++ (outstanding b).toList

theorem making_roused (items pushes : Nat) (finished : Bool) (s : Place) (c : CondvarId) :
    Making items pushes finished s (.parked c) = Making items pushes finished s .roused := by
  cases s with
  | producer q => cases q <;> rfl
  | consumer => rfl

theorem taking_roused (store : Store) (s : Place) (c : CondvarId) :
    Taking store s (.parked c) = Taking store s .roused := by
  cases s with
  | producer => rfl
  | consumer c => cases c <;> rfl

theorem past_roused (s : Place) (c : CondvarId) : Past s (.parked c) = Past s .roused := by
  cases s with
  | producer q => cases q <;> rfl
  | consumer => rfl

theorem pending_roused (s : Place) (c : CondvarId) : pending s (.parked c) = pending s .roused := by
  cases s with
  | producer => rfl
  | consumer c => cases c <;> rfl

/-- No more items are put in than there are to be. -/
theorem Making.le {items pushes : Nat} {finished : Bool} {s : Place} {pr : Progress Store}
    (h : Making items pushes finished s pr) : pushes ≤ items := by
  cases s with
  | producer q =>
    cases q with
    | resting | locking | telling | unlocking | calling =>
      have hm := h.2.1
      have hi := h.1
      omega
    | pushing =>
      cases pr with
      | done a =>
        obtain ⟨hi, hcount, _⟩ := h
        omega
      | ahead | dozing | parked | roused =>
        obtain ⟨hi, hcount, _⟩ := h
        omega
    | closing => cases pr <;> exact Nat.le_of_eq h.1
    | lockingLast | unlockingLast | callingAll | tellingEnd | ended => exact Nat.le_of_eq h.1
  | consumer => exact h.elim

/-- After the call for all the store is closed. -/
theorem Making.finished {items pushes : Nat} {finished : Bool} {s : Place} {pr : Progress Store}
    (h : Making items pushes finished s pr) (hp : Past s pr) : finished = true := by
  cases s with
  | producer q =>
    cases q with
    | callingAll | tellingEnd | ended => exact h.2
    | resting | locking | telling | pushing | unlocking | calling | lockingLast | closing
    | unlockingLast => cases pr <;> exact hp.elim
  | consumer => exact hp.elim

/-- The producer takes nothing out. -/
theorem Making.pending_eq_none {items pushes : Nat} {finished : Bool} {s : Place}
    {pr : Progress Store} (h : Making items pushes finished s pr) : pending s pr = none := by
  cases s with
  | producer => rfl
  | consumer => exact h.elim

section Handoff

variable {items : Nat} {xs : List Transfer} {b b' : Plot Store Place} {t : ThreadId}
  {st : Stage Store}

/-- Only the holder of the lock has an item that it has not told of. -/
theorem holder_of_pending (hc : b.Custody (routine items)) {i : Nat}
    (hp : pending (b.place t) (b.progress t) = some i) : b.holder 0 = some t := by
  refine (hc.holder t 0).mpr ⟨0, pass, ?_, rfl⟩
  rw [Plot.held]
  generalize b.place t = s, b.progress t = pr at hp
  cases s with
  | producer => contradiction
  | consumer c =>
    cases c with
    | popping i =>
      cases pr with
      | done a => exact only_zero pass
      | _ => contradiction
    | processing i => cases pr <;> exact only_zero pass
    | _ => contradiction

theorem outstanding_eq_some (hc : b.Custody (routine items)) {i : Nat} :
    outstanding b = some (t, i) ↔ pending (b.place t) (b.progress t) = some i := by
  constructor
  · intro h
    obtain ⟨t', ht', h⟩ := Option.bind_eq_some_iff.mp h
    obtain ⟨i', hi', h⟩ := Option.map_eq_some_iff.mp h
    cases h
    exact hi'
  · intro h
    rw [outstanding, holder_of_pending hc h, Option.bind_some, h]
    rfl

/-- Nobody takes an item out or tells of one. -/
theorem outstanding_congr (hc : b.Custody (routine items)) (hc' : b'.Custody (routine items))
    (h : ∀ t, pending (b'.place t) (b'.progress t) = pending (b.place t) (b.progress t)) :
    outstanding b' = outstanding b := by
  refine Option.ext fun ⟨t, i⟩ => ?_
  rw [outstanding_eq_some hc, outstanding_eq_some hc', h]

/-- A consumer that does not hold the lock knows nothing of the store but its end. -/
theorem Taking.change {store store' : Store} {s : Place} {pr : Progress Store}
    (h : Taking store s pr) (hfree : (routine items).holds t s pr 0 = none)
    (hend : store.finished = true ∧ store.items = [] →
      store'.finished = true ∧ store'.items = []) : Taking store' s pr := by
  cases s with
  | producer => exact h
  | consumer c =>
    cases c with
    | waiting =>
      cases pr with
      | dozing => cases hfree
      | _ => trivial
    | looking =>
      cases pr with
      | done a =>
        cases a with
        | value v => rcases v with ⟨_ | ⟨item, rest⟩, _ | _⟩ <;> cases hfree
        | _ => trivial
      | _ => trivial
    | popping =>
      cases pr with
      | ahead => cases hfree
      | _ => trivial
    | leaving | tellingEnd | ended => exact hend h
    | failing => exact h
    | locking | processing | again => trivial

/-- While one worker has the lock the others do not. -/
theorem not_holds (hc : b.Custody (routine items)) (hh : b.holder 0 = some t) {t' : ThreadId}
    (ht : t' ≠ t) : (routine items).holds t' (b.place t') (b.progress t') 0 = none := by
  by_contra hne
  obtain ⟨g, hg⟩ := Option.ne_none_iff_exists'.mp hne
  obtain ⟨s, hs⟩ := Routine.keeps_of_holds hg
  have hholder := (hc.holder t' g.mutex).mpr ⟨0, g, hg, rfl⟩
  rw [(keeps_eq_some hs).2, show pass.mutex = 0 from rfl, hh] at hholder
  cases hholder
  exact ht rfl

theorem Handoff.untouched (hx : transfer? b t st = none) (h : Handoff items xs b') :
    Handoff items (xs ++ (transfer? b t st).toList) b' := by
  rw [hx]
  exact (List.append_nil xs).symm ▸ h

variable (hturn : b.Turn (routine items) t (script items t (b.place t)) st b')

include hturn

/-- What the others know of the store stays true when the holder of the lock changes it. -/
theorem Handoff.takes (h : Handoff items xs b) (hc : b.Custody (routine items))
    (hh : b.holder 0 = some t)
    (hend : (b.value 0).finished = true ∧ (b.value 0).items = [] →
      (b'.value 0).finished = true ∧ (b'.value 0).items = []) {t' : ThreadId} (ht : t' ≠ t)
    (h0 : t' ≠ 0) : Taking (b'.value 0) (b'.place t') (b'.progress t') := by
  rw [hturn.others_congr ht (taking_roused _)]
  exact (h.consumer t' h0).change (not_holds hc hh ht) hend

/-- Sleepers are left to sleep while not all were called. -/
theorem Handoff.calms (h : Handoff items xs b)
    (hpast : t = 0 → Past (b'.place t) (b'.progress t) → Past (b.place t) (b.progress t))
    (hparked : ∀ c, b'.progress t = .parked c → c = 0 ∧ ¬ Past (b.place 0) (b.progress 0)) :
    ∀ t' c, b'.progress t' = .parked c → c = 0 ∧ ¬ Past (b'.place 0) (b'.progress 0) := by
  have hback : Past (b'.place 0) (b'.progress 0) → Past (b.place 0) (b.progress 0) := by
    by_cases h0 : t = 0
    · subst h0
      exact hpast rfl
    · rw [hturn.others_congr (Ne.symm h0) past_roused]
      exact id
  intro t' c hs
  by_cases ht : t' = t
  · subst ht
    exact (hparked c hs).imp_right (mt hback)
  · obtain ⟨_, hsame | ⟨_, _, hroused⟩⟩ := hturn.others ht
    · rw [hsame] at hs
      exact (h.calm t' c hs).imp_right (mt hback)
    · rw [hroused] at hs
      contradiction

/-- The producer goes on and leaves the store as it is. -/
theorem Handoff.producer_calls (h : Handoff items xs b) (hc : b.Custody (routine items))
    (ht : t = 0) (q : Producer) (pr : Progress Store) (hpl : b'.place t = .producer q)
    (hpr : b'.progress t = pr) (hv : b'.value 0 = b.value 0)
    (hn : processed b'.notices = processed b.notices)
    (hmaking : Making items (pushed xs).length (b.value 0).finished (.producer q) pr)
    (hcalm : ∀ t' c, b'.progress t' = .parked c → c = 0 ∧ ¬ Past (b'.place 0) (b'.progress 0)) :
    Handoff items xs b' where
  order := h.order
  flow := by rw [hv, h.flow]
  producer := by
    subst ht
    rw [hv, hpl, hpr]
    exact hmaking
  consumer t' h0 := by
    rw [hv, hturn.others_congr (ht ▸ h0) (taking_roused _)]
    exact h.consumer t' h0
  calm := hcalm
  told := by
    have hmine : pending (b.place t) (b.progress t) = none := by
      subst ht
      exact h.producer.pending_eq_none
    have hout : outstanding b' = outstanding b := by
      refine outstanding_congr hc (hc.turn hturn) fun t' => ?_
      by_cases he : t' = t
      · rw [he, hpl, hmine]
        rfl
      · exact hturn.others_congr he pending_roused
    rw [hn, hout]
    exact h.told

/-- The producer goes on and lets sleepers sleep, or has called them all before. -/
theorem Handoff.producer_goes (h : Handoff items xs b) (hc : b.Custody (routine items))
    (ht : t = 0) (q : Producer) (pr : Progress Store) (hpl : b'.place t = .producer q)
    (hpr : b'.progress t = pr) (hv : b'.value 0 = b.value 0)
    (hn : processed b'.notices = processed b.notices)
    (hmaking : Making items (pushed xs).length (b.value 0).finished (.producer q) pr)
    (hpast : Past (.producer q) pr → Past (b.place t) (b.progress t))
    (hawake : ∀ c, pr ≠ .parked c) : Handoff items xs b' := by
  refine h.producer_calls hturn hc ht q pr hpl hpr hv hn hmaking ?_
  refine h.calms hturn (fun _ => ?_) fun c hs => absurd (hpr ▸ hs) (hawake c)
  rw [hpl, hpr]
  exact hpast

/-- A consumer goes on and leaves the store as it is. -/
theorem Handoff.consumer_goes (h : Handoff items xs b) (hc : b.Custody (routine items))
    (ht : t ≠ 0) (c : Consumer) (pr : Progress Store) (hpl : b'.place t = .consumer c)
    (hpr : b'.progress t = pr) (hv : b'.value 0 = b.value 0)
    (hn : processed b'.notices = processed b.notices)
    (htaking : Taking (b.value 0) (.consumer c) pr)
    (hpending : pending (.consumer c) pr = pending (b.place t) (b.progress t))
    (hparked : ∀ cv, pr = .parked cv → cv = 0 ∧ (b.value 0).finished = false) :
    Handoff items xs b' where
  order := h.order
  flow := by rw [hv, h.flow]
  producer := by
    rw [hv, hturn.others_congr (Ne.symm ht) (making_roused _ _ _)]
    exact h.producer
  consumer t' h0 := by
    rw [hv]
    by_cases he : t' = t
    · rw [he, hpl, hpr]
      exact htaking
    · rw [hturn.others_congr he (taking_roused _)]
      exact h.consumer t' h0
  calm := by
    refine h.calms hturn (fun h0 => absurd h0 ht) fun c hs => ?_
    obtain ⟨h0, hopen⟩ := hparked c (hpr ▸ hs)
    refine ⟨h0, fun hp => ?_⟩
    rw [h.producer.finished hp] at hopen
    contradiction
  told := by
    have hout : outstanding b' = outstanding b := by
      refine outstanding_congr hc (hc.turn hturn) fun t' => ?_
      by_cases he : t' = t
      · rw [he, hpl, hpr, hpending]
      · exact hturn.others_congr he pending_roused
    rw [hn, hout]
    exact h.told

/-- The producer puts an item into the store. -/
theorem Handoff.push (h : Handoff items xs b) (hc : b.Custody (routine items)) (ht : t = 0)
    (hh : b.holder 0 = some t) {i : Nat} {a : Answer Store}
    (hs : b.place t = .producer (.pushing i))
    (hp : b.progress t = .ahead) (hpl : b'.place t = .producer (.pushing i))
    (hpr : b'.progress t = .done a) (hv : b'.value 0 = (b.value 0).push i)
    (hn : b'.notices = b.notices) : Handoff items (xs ++ [.push i]) b' := by
  obtain ⟨hi, hcount, hopen⟩ :
      i < items ∧ (pushed xs).length = i ∧ (b.value 0).finished = false := by
    have hmaking := h.producer
    subst ht
    rw [hs, hp] at hmaking
    exact hmaking
  have hlength : (pushed (xs ++ [.push i])).length = i + 1 := by
    rw [pushed_push, List.length_append, hcount]
    rfl
  have hout : outstanding b' = outstanding b := by
    refine outstanding_congr hc (hc.turn hturn) fun t' => ?_
    by_cases he : t' = t
    · rw [he, hpl, hs]
      rfl
    · exact hturn.others_congr he pending_roused
  refine ⟨?_, ?_, ?_, fun t' h0 => ?_, ?_, ?_⟩
  · rw [hlength, pushed_push, h.order, hcount, List.range_succ]
  · rw [pushed_push, popped_push, hv, ← h.flow, List.append_assoc]
    rfl
  · subst ht
    rw [hpl, hpr, hlength, hv]
    exact ⟨hi, rfl, hopen⟩
  · refine h.takes hturn hc hh (fun hend => ?_) (ht ▸ h0) h0
    rw [hopen] at hend
    exact absurd hend.1 nofun
  · refine h.calms hturn (fun _ => ?_) fun c hx => ?_
    · rw [hpl, hpr]
      exact False.elim
    · rw [hpr] at hx
      contradiction
  · rw [hn, hout, popped_push]
    exact h.told

/-- The producer closes the store. -/
theorem Handoff.close (h : Handoff items xs b) (hc : b.Custody (routine items)) (ht : t = 0)
    (hh : b.holder 0 = some t) {a : Answer Store} (hs : b.place t = .producer .closing)
    (hp : b.progress t = .ahead) (hpl : b'.place t = .producer .closing)
    (hpr : b'.progress t = .done a) (hv : b'.value 0 = (b.value 0).close)
    (hn : b'.notices = b.notices) : Handoff items xs b' := by
  obtain ⟨hcount, hopen⟩ : (pushed xs).length = items ∧ (b.value 0).finished = false := by
    have hmaking := h.producer
    subst ht
    rw [hs, hp] at hmaking
    exact hmaking
  have hout : outstanding b' = outstanding b := by
    refine outstanding_congr hc (hc.turn hturn) fun t' => ?_
    by_cases he : t' = t
    · rw [he, hpl, hs]
      rfl
    · exact hturn.others_congr he pending_roused
  refine ⟨h.order, ?_, ?_, fun t' h0 => ?_, ?_, ?_⟩
  · rw [hv]
    exact h.flow
  · subst ht
    rw [hpl, hpr, hv]
    exact ⟨hcount, rfl⟩
  · refine h.takes hturn hc hh (fun hend => ?_) (ht ▸ h0) h0
    rw [hopen] at hend
    exact absurd hend.1 nofun
  · refine h.calms hturn (fun _ => ?_) fun c hx => ?_
    · rw [hpl, hpr]
      exact False.elim
    · rw [hpr] at hx
      contradiction
  · rw [hn, hout]
    exact h.told

/-- A consumer takes the oldest item out of the store. -/
theorem Handoff.pop (h : Handoff items xs b) (hc : b.Custody (routine items)) (ht : t ≠ 0)
    (hh : b.holder 0 = some t) {i : Nat} {a : Answer Store}
    (hs : b.place t = .consumer (.popping i))
    (hp : b.progress t = .ahead) (hpl : b'.place t = .consumer (.popping i))
    (hpr : b'.progress t = .done a) (hv : b'.value 0 = (b.value 0).pop)
    (hn : b'.notices = b.notices) : Handoff items (xs ++ [.pop t i]) b' := by
  obtain ⟨rest, hitems⟩ : ∃ rest, (b.value 0).items = i :: rest := by
    have htaking := h.consumer t ht
    rw [hs, hp] at htaking
    exact List.head?_eq_some_iff.mp htaking
  have hbefore : outstanding b = none := by
    rw [outstanding, hh, Option.bind_some, hs, hp]
    rfl
  have hafter : outstanding b' = some (t, i) := by
    rw [outstanding_eq_some (hc.turn hturn), hpl, hpr]
    rfl
  refine ⟨?_, ?_, ?_, fun t' h0 => ?_, ?_, ?_⟩
  · rw [pushed_pop]
    exact h.order
  · rw [pushed_pop, popped_pop, ← h.flow, hv, Store.pop, hitems, List.map_append, List.append_assoc]
    rfl
  · rw [pushed_pop, hv, hturn.others_congr (Ne.symm ht) (making_roused _ _ _)]
    exact h.producer
  · by_cases he : t' = t
    · rw [he, hpl, hpr]
      trivial
    · refine h.takes hturn hc hh (fun hend => ?_) he h0
      rw [hitems] at hend
      exact absurd hend.2 nofun
  · refine h.calms hturn (fun h0 => absurd h0 ht) fun c hx => ?_
    rw [hpr] at hx
    contradiction
  · obtain ⟨ts, hts, htold⟩ := h.told
    refine ⟨ts, by rw [hn, hts], ?_⟩
    rw [popped_pop, htold, hbefore, hafter, Option.toList_none, List.append_nil, Option.toList_some]

/-- A consumer tells of the item that it has taken out. -/
theorem Handoff.tell (h : Handoff items xs b) (hc : b.Custody (routine items)) (ht : t ≠ 0)
    {i : Nat} (hs : b.place t = .consumer (.processing i))
    (hpl : b'.place t = .consumer .again) (hpr : b'.progress t = .ahead)
    (hv : b'.value 0 = b.value 0) (hn : b'.notices = b.notices ++ [processing (t, i)]) :
    Handoff items xs b' := by
  have hbefore : outstanding b = some (t, i) := by
    rw [outstanding_eq_some hc, hs]
    rfl
  have hafter : outstanding b' = none := by
    refine Option.eq_none_iff_forall_ne_some.mpr fun ⟨t', i'⟩ hout => ?_
    rw [outstanding_eq_some (hc.turn hturn)] at hout
    by_cases he : t' = t
    · rw [he, hpl] at hout
      contradiction
    · rw [hturn.others_congr he pending_roused] at hout
      rw [(outstanding_eq_some hc).mpr hout, Option.some_inj] at hbefore
      cases hbefore
      exact he rfl
  refine ⟨h.order, ?_, ?_, fun t' h0 => ?_, ?_, ?_⟩
  · rw [hv]
    exact h.flow
  · rw [hv, hturn.others_congr (Ne.symm ht) (making_roused _ _ _)]
    exact h.producer
  · rw [hv]
    by_cases he : t' = t
    · rw [he, hpl, hpr]
      trivial
    · rw [hturn.others_congr he (taking_roused _)]
      exact h.consumer t' h0
  · refine h.calms hturn (fun h0 => absurd h0 ht) fun c hx => ?_
    rw [hpr] at hx
    contradiction
  · obtain ⟨ts, hts, htold⟩ := h.told
    refine ⟨ts ++ [(t, i)], ?_, ?_⟩
    · rw [hn, processed, List.filter_append, ← processed, hts, List.map_append]
      rfl
    · rw [htold, hbefore, hafter, Option.toList_none, List.append_nil, Option.toList_some]

omit hturn

/-- Whoever keeps the lock and has all of its call before it holds the lock. -/
theorem holder_of_keeps (hc : b.Custody (routine items)) {s : Place} (hs : b.place t = s)
    (hp : b.progress t = .ahead) (hk : keeps s = only pass) : b.holder 0 = some t := by
  refine (hc.holder t 0).mpr ⟨0, pass, ?_, rfl⟩
  rw [Plot.held, hs, hp, Routine.holds_ahead]
  exact (congrFun hk 0).trans (only_zero pass)

/-- Whatever the producer does, nothing is lost. -/
theorem Handoff.turn_producer (h : Handoff items xs b) (hc : b.Custody (routine items))
    (hturn : b.Turn (routine items) 0 (script items 0 (b.place 0)) st b') :
    Handoff items (xs ++ (transfer? b 0 st).toList) b' := by
  have hvalue (v : Store) : update b.value pass.mutex v 0 = v := update_self ..
  have hm := h.producer
  have hall := hturn
  cases hs : b.place 0 with
  | consumer c =>
    rw [hs] at hm
    exact hm.elim
  | producer q =>
    rw [hs] at hm hturn
    cases q with
    | resting i =>
      cases hturn with
      | quiet hq => exact h.untouched (transfer?_of_quiet hq)
      | pause hp =>
        exact .untouched rfl (h.producer_goes hall hc rfl (.locking i) .ahead (by simp) hp
          rfl rfl hm False.elim nofun)
    | locking i =>
      cases hturn with
      | quiet hq => exact h.untouched (transfer?_of_quiet hq)
      | lock =>
        exact .untouched rfl (h.producer_goes hall hc rfl (.locking i) (.done .ok) hs
          (by simp) rfl rfl hm False.elim nofun)
      | @collect _ a _ hp ha =>
        cases a with
        | ok =>
          exact .untouched rfl (h.producer_goes hall hc rfl (.telling i) .ahead (by simp)
            (by simp) rfl rfl hm False.elim nofun)
        | _ => exact ha.elim
    | telling i =>
      cases hturn with
      | quiet hq => exact h.untouched (transfer?_of_quiet hq)
      | note hp =>
        refine .untouched rfl (h.producer_goes hall hc rfl (.pushing i) .ahead (by simp) hp
          rfl ?_ hm False.elim nofun)
        exact (List.filter_append ..).trans (List.append_nil _)
    | pushing i =>
      cases hturn with
      | quiet hq => exact h.untouched (transfer?_of_quiet hq)
      | access hg hp =>
        obtain ⟨_, rfl⟩ := keeps_eq_some hg
        have hx (change : Store → Store) :
            transfer? b 0 (.accessing pass change) = some (.push i) := by
          simp only [transfer?, hs]
        rw [hx]
        exact h.push (a := .value ((b.value 0).push i)) hall hc rfl
          (holder_of_keeps hc hs hp rfl) hs hp hs (by simp [pass]) (hvalue _) rfl
      | collect hp =>
        rw [hp] at hm
        exact .untouched rfl (h.producer_goes hall hc rfl (.unlocking i) .ahead (by simp)
          (by simp) rfl rfl hm False.elim nofun)
    | unlocking i =>
      cases hturn with
      | quiet hq => exact h.untouched (transfer?_of_quiet hq)
      | leave =>
        exact .untouched rfl (h.producer_goes hall hc rfl (.unlocking i) (.done .ok) hs
          (by simp) rfl rfl hm False.elim nofun)
      | collect =>
        exact .untouched rfl (h.producer_goes hall hc rfl (.calling i) .ahead (by simp)
          (by simp) rfl rfl hm False.elim nofun)
    | calling i =>
      have hnext : Making items (pushed xs).length (b.value 0).finished
          (.producer (.toward items (i + 1))) .ahead := by
        obtain ⟨hi, hcount, hopen⟩ := hm
        rw [Producer.toward]
        split
        · exact ⟨by assumption, hcount, hopen⟩
        · exact ⟨by omega, hopen⟩
      have hpast : ¬ Past (.producer (.toward items (i + 1))) .ahead := by
        rw [Producer.toward]
        split <;> exact id
      cases hturn with
      | quiet hq => exact h.untouched (transfer?_of_quiet hq)
      | notifyOne =>
        exact .untouched rfl (h.producer_goes hall hc rfl (.calling i) (.done (.flag true)) hs
          (by simp) rfl rfl hm False.elim nofun)
      | notifyNobody =>
        exact .untouched rfl (h.producer_goes hall hc rfl (.calling i) (.done (.flag false)) hs
          (by simp) rfl rfl hm False.elim nofun)
      | collect =>
        exact .untouched rfl (h.producer_goes hall hc rfl (.toward items (i + 1)) .ahead (by simp)
          (by simp) rfl rfl hnext (fun hp => absurd hp hpast) nofun)
    | lockingLast =>
      cases hturn with
      | quiet hq => exact h.untouched (transfer?_of_quiet hq)
      | lock =>
        exact .untouched rfl (h.producer_goes hall hc rfl .lockingLast (.done .ok) hs
          (by simp) rfl rfl hm False.elim nofun)
      | @collect _ a _ hp ha =>
        cases a with
        | ok =>
          exact .untouched rfl (h.producer_goes hall hc rfl .closing .ahead (by simp)
            (by simp) rfl rfl hm False.elim nofun)
        | _ => exact ha.elim
    | closing =>
      cases hturn with
      | quiet hq => exact h.untouched (transfer?_of_quiet hq)
      | access hg hp =>
        obtain ⟨_, rfl⟩ := keeps_eq_some hg
        have hx (change : Store → Store) :
            transfer? b 0 (.accessing pass change) = none := by
          simp only [transfer?, hs]
        exact .untouched (hx _) (h.close (a := .value (b.value 0).close) hall hc rfl
          (holder_of_keeps hc hs hp rfl) hs hp hs (by simp [pass]) (hvalue _) rfl)
      | collect hp =>
        rw [hp] at hm
        exact .untouched rfl (h.producer_goes hall hc rfl .unlockingLast .ahead (by simp)
          (by simp) rfl rfl hm False.elim nofun)
    | unlockingLast =>
      cases hturn with
      | quiet hq => exact h.untouched (transfer?_of_quiet hq)
      | leave =>
        exact .untouched rfl (h.producer_goes hall hc rfl .unlockingLast (.done .ok) hs
          (by simp) rfl rfl hm False.elim nofun)
      | collect =>
        exact .untouched rfl (h.producer_goes hall hc rfl .callingAll .ahead (by simp)
          (by simp) rfl rfl hm False.elim nofun)
    | callingAll =>
      cases hturn with
      | quiet hq => exact h.untouched (transfer?_of_quiet hq)
      | @notifyAll _ _ n =>
        refine .untouched rfl (h.producer_calls hall hc rfl .callingAll (.done (.count n)) hs
          (by simp) rfl rfl hm fun t' c hx => ?_)
        -- all that slept were called
        dsimp only at hx
        by_cases he : t' = 0
        · rw [he, update_self] at hx
          contradiction
        · rw [update_of_ne he] at hx
          obtain ⟨hslept, hne⟩ := Progress.of_rouse_eq_parked hx
          exact absurd (h.calm t' c hslept).1 hne
      | collect hp =>
        exact .untouched rfl (h.producer_goes hall hc rfl .tellingEnd .ahead (by simp)
          (by simp) rfl rfl hm (fun _ => by rw [hs, hp]; trivial) nofun)
    | tellingEnd =>
      cases hturn with
      | quiet hq => exact h.untouched (transfer?_of_quiet hq)
      | note hp =>
        refine .untouched rfl (h.producer_goes hall hc rfl (.ended (.ok ())) .ahead (by simp) hp
          rfl ?_ hm (fun _ => by rw [hs]; trivial) nofun)
        exact (List.filter_append ..).trans (List.append_nil _)
    | ended r =>
      cases hturn with
      | quiet hq => exact h.untouched (transfer?_of_quiet hq)
      | stop =>
        exact .untouched rfl ⟨h.order, h.flow, h.producer, h.consumer, h.calm, h.told⟩

theorem nothingYet_eq {seen : List Store} {store v : Store} {again : Bool}
    (h : nothingYet seen store = (again, v)) :
    v = store ∧ (again = true → store.items = [] ∧ store.finished = false) := by
  obtain ⟨rfl, rfl⟩ := Prod.mk.inj h
  simp

/-- Whatever a consumer does, nothing is lost. -/
theorem Handoff.turn_consumer (h : Handoff items xs b) (hc : b.Custody (routine items))
    (ht : t ≠ 0) (hturn : b.Turn (routine items) t (script items t (b.place t)) st b') :
    Handoff items (xs ++ (transfer? b t st).toList) b' := by
  have hvalue (v : Store) : update b.value pass.mutex v 0 = v := update_self ..
  have hm := h.consumer t ht
  have hall := hturn
  cases hs : b.place t with
  | producer q =>
    rw [hs] at hm
    exact hm.elim
  | consumer c =>
    rw [hs] at hm hturn
    cases c with
    | locking =>
      cases hturn with
      | quiet hq => exact h.untouched (transfer?_of_quiet hq)
      | lock =>
        exact .untouched rfl (h.consumer_goes hall hc ht .locking (.done .ok) hs (by simp) rfl rfl
          trivial (by rw [hs]; rfl) nofun)
      | @collect _ a _ hp ha =>
        cases a with
        | ok =>
          exact .untouched rfl (h.consumer_goes hall hc ht .waiting .ahead (by simp) (by simp) rfl
            rfl trivial (by rw [hs]; rfl) nofun)
        | _ => exact ha.elim
    | waiting =>
      cases hturn with
      | quiet hq => exact h.untouched (transfer?_of_quiet hq)
      | again hg hp hv =>
        obtain ⟨_, rfl⟩ := keeps_eq_some hg
        obtain ⟨rfl, hempty⟩ := nothingYet_eq hv
        exact .untouched rfl (h.consumer_goes hall hc ht .waiting .dozing hs (by simp) (hvalue _)
          rfl (hempty rfl) (by rw [hs]; rfl) nofun)
      | enough hg hp hv =>
        obtain ⟨_, rfl⟩ := keeps_eq_some hg
        obtain ⟨rfl, _⟩ := nothingYet_eq hv
        exact .untouched rfl (h.consumer_goes hall hc ht .waiting (.done .ok) hs (by simp)
          (hvalue _) rfl trivial (by rw [hs]; rfl) nofun)
      | park hg hp =>
        rw [hp] at hm
        refine .untouched rfl (h.consumer_goes hall hc ht .waiting (.parked 0) hs (by simp) rfl
          rfl trivial (by rw [hs]; rfl) fun cv hcv => ?_)
        cases hcv
        exact ⟨rfl, hm.2⟩
      | rouse hp =>
        exact .untouched rfl (h.consumer_goes hall hc ht .waiting .roused hs (by simp) rfl
          rfl trivial (by rw [hs]; rfl) nofun)
      | rejoin hg hp =>
        exact .untouched rfl (h.consumer_goes hall hc ht .waiting .ahead hs (by simp) rfl
          rfl trivial (by rw [hs]; rfl) nofun)
      | @collect _ a _ hp ha =>
        cases a with
        | ok =>
          exact .untouched rfl (h.consumer_goes hall hc ht .looking .ahead (by simp) (by simp) rfl
            rfl trivial (by rw [hs]; rfl) nofun)
        | _ => exact ha.elim
    | looking =>
      cases hturn with
      | quiet hq => exact h.untouched (transfer?_of_quiet hq)
      | access hg hp =>
        obtain ⟨_, rfl⟩ := keeps_eq_some hg
        have hx (change : Store → Store) :
            transfer? b t (.accessing pass change) = none := by
          simp only [transfer?, hs]
        exact .untouched (hx _) (h.consumer_goes hall hc ht .looking (.done (.value (b.value 0))) hs
          (by simp [pass]) (hvalue _) rfl rfl (by rw [hs]; rfl) nofun)
      | @collect _ a _ hp ha =>
        cases a with
        | value v =>
          rw [hp] at hm
          have hstore : v = b.value 0 := hm
          rcases v with ⟨_ | ⟨item, rest⟩, _ | _⟩
          · exact .untouched rfl (h.consumer_goes hall hc ht .again .ahead (by simp) (by simp) rfl
              rfl trivial (by rw [hs]; rfl) nofun)
          · exact .untouched rfl (h.consumer_goes hall hc ht .leaving .ahead (by simp) (by simp) rfl
              rfl (by rw [← hstore]; exact ⟨rfl, rfl⟩) (by rw [hs]; rfl) nofun)
          all_goals
            exact .untouched rfl (h.consumer_goes hall hc ht (.popping item) .ahead (by simp)
              (by simp) rfl rfl (by rw [← hstore]; rfl) (by rw [hs]; rfl) nofun)
        | _ => exact ha.elim
    | popping i =>
      cases hturn with
      | quiet hq => exact h.untouched (transfer?_of_quiet hq)
      | access hg hp =>
        obtain ⟨_, rfl⟩ := keeps_eq_some hg
        have hx (change : Store → Store) :
            transfer? b t (.accessing pass change) = some (.pop t i) := by
          rw [hp] at hm
          have hhead : (b.value 0).items.head? = some i := hm
          simp only [transfer?, hs, hhead]
          rfl
        rw [hx]
        exact h.pop (a := .value (b.value 0).pop) hall hc ht (holder_of_keeps hc hs hp rfl) hs hp hs
          (by simp [pass]) (hvalue _) rfl
      | collect hp =>
        exact .untouched rfl (h.consumer_goes hall hc ht (.processing i) .ahead (by simp) (by simp)
          rfl rfl trivial (by rw [hs, hp]; rfl) nofun)
    | processing i =>
      cases hturn with
      | quiet hq => exact h.untouched (transfer?_of_quiet hq)
      | note hp =>
        exact .untouched rfl (h.tell hall hc ht hs (by simp) hp rfl rfl)
    | again =>
      cases hturn with
      | quiet hq => exact h.untouched (transfer?_of_quiet hq)
      | leave =>
        exact .untouched rfl (h.consumer_goes hall hc ht .again (.done .ok) hs (by simp) rfl rfl
          trivial (by rw [hs]; rfl) nofun)
      | collect =>
        exact .untouched rfl (h.consumer_goes hall hc ht .locking .ahead (by simp) (by simp) rfl
          rfl trivial (by rw [hs]; rfl) nofun)
    | leaving =>
      cases hturn with
      | quiet hq => exact h.untouched (transfer?_of_quiet hq)
      | leave =>
        exact .untouched rfl (h.consumer_goes hall hc ht .leaving (.done .ok) hs (by simp) rfl rfl
          hm (by rw [hs]; rfl) nofun)
      | collect =>
        exact .untouched rfl (h.consumer_goes hall hc ht .tellingEnd .ahead (by simp) (by simp) rfl
          rfl hm (by rw [hs]; rfl) nofun)
    | tellingEnd =>
      cases hturn with
      | quiet hq => exact h.untouched (transfer?_of_quiet hq)
      | note hp =>
        refine .untouched rfl (h.consumer_goes hall hc ht (.ended (.ok ())) .ahead (by simp) hp rfl
          ?_ hm (by rw [hs]; rfl) nofun)
        exact (List.filter_append ..).trans (List.append_nil _)
    | failing => exact hm.elim
    | ended r =>
      cases hturn with
      | quiet hq => exact h.untouched (transfer?_of_quiet hq)
      | stop =>
        exact .untouched rfl ⟨h.order, h.flow, h.producer, h.consumer, h.calm, h.told⟩

/-- Whatever a worker does, nothing is lost. -/
theorem Handoff.turn (h : Handoff items xs b) (hc : b.Custody (routine items))
    (hturn : b.Turn (routine items) t (script items t (b.place t)) st b') :
    Handoff items (xs ++ (transfer? b t st).toList) b' := by
  by_cases ht : t = 0
  · subst ht
    exact h.turn_producer hc hturn
  · exact h.turn_consumer hc ht hturn

/-- Only consumers take items out. -/
theorem Handoff.thread_of_pop (h : Handoff items xs b) {t' : ThreadId} {i : Nat}
    (hx : transfer? b t st = some (.pop t' i)) : t' = t ∧ t ≠ 0 := by
  have hm := h.producer
  unfold transfer? at hx
  split at hx
  · cases hx
  · rename_i hs
    obtain ⟨_, _, hx⟩ := Option.map_eq_some_iff.mp hx
    cases hx
    refine ⟨rfl, ?_⟩
    rintro rfl
    rw [hs] at hm
    exact hm
  · contradiction

end Handoff

end LockTrace.Queue
