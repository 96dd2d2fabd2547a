import LockTrace.Proofs.Threads.Mirror

namespace LockTrace

variable {V W : Type}

/-- Where a thread stands in a call that replaces the sink of an emitter: it is to take the lock of
the sink, it holds the lock, it has exchanged the sinks, or it has given the lock back. -/
inductive Errand (W : Type)
  | asking (new : Sink W)
  | holding (new : Sink W)
  | leaving (old : Sink W)
  | returning (old : Sink W)

namespace Errand

/-- The thread holds the lock of the sink. -/
def Locks : Errand W → Prop
  | .holding _ | .leaving _ => True
  | _ => False

/-- The sink that is still to be installed. -/
def new? : Errand W → Option (Sink W)
  | .asking new | .holding new => some new
  | _ => none

/-- The sink that is still to be handed back. -/
def old? : Errand W → Option (Sink W)
  | .leaving old | .returning old => some old
  | _ => none

end Errand

/-- A sink makes way for another one. It has received some chunks since it was installed. -/
structure Exchange (W : Type) where
  thread : ThreadId
  old : Sink W
  new : Sink W
  received : List Chunk

/-- Threads that make records through an emitter, or replace its sink. -/
structure Relay (V W : Type) where
  world : World V (Hall W)
  errand : ThreadId → Option (Errand W) := fun _ => none

/-- What happens among them. -/
inductive Shift (V W : Type)
  | stir (l : Label V)
  | ask (t : ThreadId) (new : Sink W)
  | enter (t : ThreadId)
  | swap (x : Exchange W)
  | leave (t : ThreadId)
  | hand (t : ThreadId) (old : Sink W)

namespace Shift

def label? : Shift V W → Option (Label V)
  | .stir l => some l
  | _ => none

def exchange? : Shift V W → Option (Exchange W)
  | .swap x => some x
  | _ => none

/-- The sink that a thread asks to install. -/
def asked? (t : ThreadId) : Shift V W → Option (Sink W)
  | .ask t' new => if t' = t then some new else none
  | _ => none

/-- The sink that a thread gets back. -/
def handed? (t : ThreadId) : Shift V W → Option (Sink W)
  | .hand t' old => if t' = t then some old else none
  | _ => none

end Shift

theorem filterMap_record?_outward (ls : List (Label V)) :
    (ls.filter Label.outward).filterMap Label.record? = ls.filterMap Label.record? := by
  rw [List.filterMap_filter]
  congr 1
  funext l
  cases l <;> rfl

/-- A call goes on that has begun before. -/
def Shift.Ongoing : Shift V W → Prop
  | .stir (.part _) | .stir (.record ..) | .enter _ | .swap _ | .leave _ | .hand .. => True
  | _ => False

/-- The exchanges among some shifts. -/
def exchanges (ls : List (Shift V W)) : List (Exchange W) := ls.filterMap Shift.exchange?

/-- Those that one thread has made. -/
def exchangesOf (t : ThreadId) (ls : List (Shift V W)) : List (Exchange W) :=
  (exchanges ls).filter (·.thread = t)

namespace Relay

variable (r : Relay V W) (e : EmitterId) (t : ThreadId)

def go (x : Option (Errand W)) : Relay V W := { r with errand := Function.update r.errand t x }

@[simp] theorem errand_go_self (x : Option (Errand W)) : (r.go t x).errand t = x :=
  Function.update_self ..

theorem errand_go_ne {t t' : ThreadId} (h : t ≠ t') (x : Option (Errand W)) :
    (r.go t x).errand t' = r.errand t' := Function.update_of_ne (Ne.symm h) ..

/-- The lock of the sink is held by a thread that replaces the sink. -/
def Shut : Prop := ∃ t, ∃ x ∈ r.errand t, x.Locks

/-- The sink of the emitter makes way for another one. -/
def exchange (new : Sink W) : World V (Hall W) :=
  r.world.setBooth e { r.world.booth e with sink := new, arrived := [] }

variable {r e t} [Writer W]

/-- One step of one thread. While the lock of the sink is held by a thread that replaces it no
other thread enters; and that one waits until nobody is inside. -/
inductive Step (e : EmitterId) (r : Relay V W) : Shift V W → Relay V W → Prop
  | stir {l : Label V} {w : World V (Hall W)} (h : r.world.Stir l w)
      (hb : ∀ t call, l.begun? = some (t, call) → r.errand t = none)
      (hs : r.Shut → (w.booth e).inside = none) : Step e r (.stir l) { r with world := w }
  | ask {t : ThreadId} {new : Sink W} (hi : (r.world.thread t).stage = .idle)
      (he : r.errand t = none) : Step e r (.ask t new) (r.go t (some (.asking new)))
  | enter {t : ThreadId} {new : Sink W} (he : r.errand t = some (.asking new)) (hs : ¬ r.Shut)
      (hb : (r.world.booth e).inside = none) : Step e r (.enter t) (r.go t (some (.holding new)))
  | swap {t : ThreadId} {new : Sink W} (he : r.errand t = some (.holding new)) :
      Step e r (.swap ⟨t, (r.world.booth e).sink, new, (r.world.booth e).arrived⟩)
        { r.go t (some (.leaving (r.world.booth e).sink)) with world := r.exchange e new }
  | leave {t : ThreadId} {old : Sink W} (he : r.errand t = some (.leaving old)) :
      Step e r (.leave t) (r.go t (some (.returning old)))
  | hand {t : ThreadId} {old : Sink W} (he : r.errand t = some (.returning old)) :
      Step e r (.hand t old) (r.go t none)

section Record

variable {e' : EmitterId} {k : Kind} {name : LockName} {t : ThreadId}

/-- A thread that makes a record goes on with it. -/
theorem Step.part {w : World V (Hall W)} {r : Relay V W} (hs : ¬ r.Shut)
    (hp : (r.world.thread t).stage.pending? = some (e', k, name))
    (hm : r.world.Part t e' k name w) : r.Step e (.stir (.part t)) { r with world := w } :=
  .stir (.part hp hm) (fun _ _ hl => by cases hl) fun h => absurd h hs

theorem Step.record {r : Relay V W} {ev : Event} {result : Except IoError Unit}
    (hs : r.Shut → (((r.world.vacate e').resume t (result.mapError .sink)).booth e).inside = none)
    (hp : (r.world.thread t).stage.pending? = some (e', k, name))
    (hb : (r.world.booth e').inside = some (t, .work ev (.done result))) :
    r.Step e (.stir (.record t k name))
      { r with world := (r.world.vacate e').resume t (result.mapError .sink) } :=
  .stir (.record hp hb) (fun _ _ hl => by cases hl) hs

end Record

omit [Writer W] in
/-- The sink is not locked while the only thread that may replace it does not lock it. -/
theorem not_shut {w : World V (Hall W)} {errand : ThreadId → Option (Errand W)} {t : ThreadId}
    (hx : ¬ ∃ y ∈ errand t, y.Locks) (he : ∀ t' ≠ t, errand t' = none) : ¬ Shut ⟨w, errand⟩ := by
  rintro ⟨t', y, hy, hlocks⟩
  by_cases ht : t' = t
  · subst ht
    exact hx ⟨y, hy, hlocks⟩
  · change y ∈ errand t' at hy
    rw [he t' ht] at hy
    contradiction

omit [Writer W] in
theorem shut_of_update {w : World V (Hall W)} {errand : ThreadId → Option (Errand W)}
    {x : Option (Errand W)} (h : Shut ⟨w, Function.update errand t x⟩)
    (hx : ¬ ∃ y ∈ x, y.Locks) : Shut ⟨w, errand⟩ := by
  obtain ⟨t', y, hy, hlocks⟩ := h
  change y ∈ Function.update errand t x t' at hy
  by_cases ht : t' = t
  · subst ht
    rw [Function.update_self] at hy
    exact absurd ⟨y, hy, hlocks⟩ hx
  · rw [Function.update_of_ne ht] at hy
    exact ⟨t', y, hy, hlocks⟩

/-- What threads do step by step. -/
inductive Run (e : EmitterId) (r₀ : Relay V W) : List (Shift V W) → Relay V W → Prop
  | start : Run e r₀ [] r₀
  | step {ls : List (Shift V W)} {r r' : Relay V W} {l : Shift V W} (h : Run e r₀ ls r)
      (hm : r.Step e l r') : Run e r₀ (ls ++ [l]) r'

theorem Run.head {r₀ r₁ : Relay V W} {l : Shift V W} {ls : List (Shift V W)}
    (hm : r₀.Step e l r₁) (h : Run e r₁ ls r) : Run e r₀ (l :: ls) r := by
  induction h with
  | start => exact Run.start.step hm
  | step _ hm' ih => exact ih.step hm'

/-- The time that a sink is installed, and the events that are recorded meanwhile. -/
structure Stint (W : Type) where
  sink : Sink W
  events : List Event

namespace Stint

/-- What the sink receives: the records of the events, each of them whole. -/
def stream (x : Stint W) : List UInt8 := x.sink.visible (x.events.flatMap Event.bytes)

/-- What becomes of the sink. -/
def back (x : Stint W) : Sink W := x.sink.after x.events

end Stint

/-- After some shifts the sinks that have been installed so far have served one after the other,
and a system with one sink for all has recorded the same events. -/
structure Accounts (e : EmitterId) (T : Finset ThreadId) (r₀ : Relay V W) (ls : List (Shift V W))
    (r : Relay V W) (past : List (Stint W)) (now : Stint W) : Prop where
  serves : (r.world.booth e).Serves now.sink now.events
  chain : (past ++ [now]).map (·.sink) = (r₀.world.booth e).sink :: (exchanges ls).map (·.new)
  taken : (exchanges ls).map (fun x => (x.old, Chunk.content x.received)) =
    past.map fun x => (x.back, x.stream)
  asked : ∀ t, ls.filterMap (Shift.asked? t) =
    (exchangesOf t ls).map (·.new) ++ ((r.errand t).bind Errand.new?).toList
  handed : ∀ t, (exchangesOf t ls).map (·.old) =
    ls.filterMap (Shift.handed? t) ++ ((r.errand t).bind Errand.old?).toList
  shut : r.Shut → (r.world.booth e).inside = none
  steady : ∀ t, ∀ x ∈ r.errand t, ∀ s ∈ x.new?, s.Steady
  mirrored : ∀ s : Sink W, s.Steady → ∃ ls' w,
    Trail World.Stir (r₀.world.setBooth e { sink := s }) ls' w ∧
      ls'.filter Label.outward = (ls.filterMap Shift.label?).filter Label.outward ∧
      World.Mirrors e T s r.world w ls' ((past ++ [now]).flatMap (·.events))

namespace Accounts

variable {T : Finset ThreadId} {r₀ r' : Relay V W} {ls : List (Shift V W)} {past : List (Stint W)}
  {now : Stint W} {l : Shift V W}

/-- Before anything has happened. -/
theorem start (h : ∀ t, r.world.thread t = {}) (hn : r.world.tags = 0)
    (hb : (r.world.booth e).Opens) (he : ∀ t, r.errand t = none) :
    Accounts e T r [] r [] ⟨(r.world.booth e).sink, []⟩ where
  serves := Booth.serves_new hb.steady hb.inside hb.arrived rfl
  chain := rfl
  taken := rfl
  asked t := by
    rw [he t]
    rfl
  handed t := by
    rw [he t]
    rfl
  shut _ := hb.inside
  steady t x hx := by
    rw [he t] at hx
    contradiction
  mirrored s hs := by
    have hopens : ((r.world.setBooth e { sink := s }).booth e).Opens := by
      rw [World.booth_setBooth_self]
      exact ⟨hs, rfl, rfl⟩
    have hlines := World.Lines.start (T := T) (w := r.world.setBooth e { sink := s }) h hn hopens
    rw [World.booth_setBooth_self] at hlines
    refine ⟨[], _, .nil _, rfl, (World.Like.setBooth r.world _).symm, hlines, ?_⟩
    rw [World.booth_setBooth_self, hb.inside]
    rfl

/-- A thread goes on with its errand, and nothing else happens. -/
theorem go (h : Accounts e T r₀ ls r past now) {x : Option (Errand W)}
    (hl : l.label? = none) (hx : l.exchange? = none)
    (ha : ∀ t', (l.asked? t').toList = if t = t' then (l.asked? t).toList else [])
    (hh : ∀ t', (l.handed? t').toList = if t = t' then (l.handed? t).toList else [])
    (hnew : ((r.errand t).bind Errand.new?).toList ++ (l.asked? t).toList =
      (x.bind Errand.new?).toList)
    (hold : ((r.errand t).bind Errand.old?).toList =
      (l.handed? t).toList ++ (x.bind Errand.old?).toList)
    (hs : (r.go t x).Shut → (r.world.booth e).inside = none)
    (hst : ∀ y ∈ x, ∀ s ∈ y.new?, s.Steady) :
    Accounts e T r₀ (ls ++ [l]) (r.go t x) past now := by
  have hex : exchanges (ls ++ [l]) = exchanges ls := by
    rw [exchanges, filterMap_concat, hx]
    exact List.append_nil _
  have hexOf (t : ThreadId) : exchangesOf t (ls ++ [l]) = exchangesOf t ls := by
    rw [exchangesOf, hex, exchangesOf]
  exact {
    serves := h.serves
    chain := by
      rw [hex]
      exact h.chain
    taken := by
      rw [hex]
      exact h.taken
    asked := fun t' => by
      rw [filterMap_concat, hexOf, h.asked t', ha, List.append_assoc]
      by_cases ht : t = t'
      · subst ht
        rw [if_pos rfl, errand_go_self, hnew]
      · rw [if_neg ht, errand_go_ne r ht, List.append_nil]
    handed := fun t' => by
      rw [filterMap_concat, hexOf, h.handed t', hh, List.append_assoc]
      by_cases ht : t = t'
      · subst ht
        rw [if_pos rfl, errand_go_self, hold]
      · rw [if_neg ht, errand_go_ne r ht, List.nil_append]
    shut := hs
    steady := fun t' y hy => by
      by_cases ht : t = t'
      · subst ht
        rw [errand_go_self] at hy
        exact hst y hy
      · rw [errand_go_ne r ht] at hy
        exact h.steady t' y hy
    mirrored := by
      rw [filterMap_concat, hl, Option.toList_none, List.append_nil]
      exact h.mirrored }

/-- A step of an emission, or of the clock. -/
theorem stir (h : Accounts e T r₀ ls r past now) {l : Label V} {w : World V (Hall W)}
    (hm : r.world.Stir l w) (hs : r.Shut → (w.booth e).inside = none)
    (hc : ∀ t call, l.begun? = some (t, call) → t ∈ T ∧ call.Emits e) :
    Accounts e T r₀ (ls ++ [.stir l]) { r with world := w } past
      { now with events := now.events ++ r.world.completed e l } := by
  have hex : exchanges (ls ++ [.stir l]) = exchanges ls := by
    rw [exchanges, filterMap_concat]
    exact List.append_nil _
  have hexOf (t : ThreadId) : exchangesOf t (ls ++ [.stir l]) = exchangesOf t ls := by
    rw [exchangesOf, hex, exchangesOf]
  obtain ⟨_, _, _, _, hmirrors⟩ := h.mirrored .stdout trivial
  exact {
    serves := hmirrors.serves h.serves hm
    chain := by
      rw [hex, ← h.chain, List.map_append, List.map_append]
      rfl
    taken := by
      rw [hex]
      exact h.taken
    asked := fun t => by
      rw [filterMap_concat, hexOf, h.asked t]
      exact List.append_nil _
    handed := fun t => by
      rw [filterMap_concat, hexOf, h.handed t]
      exact congrArg (· ++ _) (List.append_nil _).symm
    shut := hs
    steady := h.steady
    mirrored := fun s hsteady => by
      obtain ⟨ls₁, w₁, htrail, houtward, hmirrors⟩ := h.mirrored s hsteady
      obtain ⟨ls₂, w₂, htrail', houtward', hmirrors'⟩ := hmirrors.stir h.serves hm hc
      refine ⟨ls₁ ++ ls₂, w₂, htrail.append htrail', ?_, ?_⟩
      · rw [filterMap_concat, List.filter_append, List.filter_append, houtward, houtward']
        rfl
      · rw [List.flatMap_append, List.flatMap_singleton, List.append_assoc] at hmirrors'
        rw [List.flatMap_append, List.flatMap_singleton]
        exact hmirrors' }

/-- The last sink makes way for another one. -/
theorem swap (h : Accounts e T r₀ ls r past now) {new : Sink W}
    (he : r.errand t = some (.holding new)) :
    Accounts e T r₀ (ls ++ [.swap ⟨t, (r.world.booth e).sink, new, (r.world.booth e).arrived⟩])
      { r.go t (some (.leaving (r.world.booth e).sink)) with world := r.exchange e new }
      (past ++ [now]) ⟨new, []⟩ := by
  have hempty : (r.world.booth e).inside = none := h.shut ⟨t, _, he, trivial⟩
  obtain ⟨hreceived, hback⟩ := h.serves.of_empty hempty
  have hex : exchanges (ls ++ [.swap ⟨t, (r.world.booth e).sink, new, (r.world.booth e).arrived⟩]) =
      exchanges ls ++ [⟨t, (r.world.booth e).sink, new, (r.world.booth e).arrived⟩] :=
    filterMap_concat ..
  have hbooth : (r.exchange e new).booth e =
      { r.world.booth e with sink := new, arrived := [] } := World.booth_setBooth_self ..
  have hself := errand_go_self r t (some (.leaving (r.world.booth e).sink))
  have hne {t' : ThreadId} (ht : t ≠ t') :=
    errand_go_ne r ht (some (.leaving (r.world.booth e).sink))
  exact {
    serves := by
      rw [hbooth]
      exact Booth.serves_new (h.steady t _ he new rfl) hempty rfl rfl
    chain := by
      rw [hex, List.map_append, h.chain, List.map_append]
      rfl
    taken := by
      rw [hex, List.map_append, List.map_append, h.taken, List.map_singleton, List.map_singleton,
        hreceived, hback]
      rfl
    asked := fun t' => by
      rw [filterMap_concat, exchangesOf, hex, List.filter_append, ← exchangesOf, h.asked t']
      by_cases ht : t = t'
      · subst ht
        rw [hself, he]
        simp [Errand.new?, Shift.asked?]
      · rw [hne ht]
        simp [Shift.asked?, ht]
    handed := fun t' => by
      rw [filterMap_concat, exchangesOf, hex, List.filter_append, List.map_append, ← exchangesOf,
        h.handed t']
      by_cases ht : t = t'
      · subst ht
        rw [hself, he]
        simp [Errand.old?, Shift.handed?]
      · rw [hne ht]
        simp [Shift.handed?, ht]
    shut := fun _ => by
      rw [hbooth]
      exact hempty
    steady := fun t' x hx s hs => by
      by_cases ht : t = t'
      · subst ht
        rw [hself] at hx
        cases hx
        contradiction
      · rw [hne ht] at hx
        exact h.steady t' x hx s hs
    mirrored := fun s hsteady => by
      obtain ⟨ls₁, w₁, htrail, houtward, hmirrors⟩ := h.mirrored s hsteady
      refine ⟨ls₁, w₁, htrail, ?_, (World.Like.setBooth r.world _).trans hmirrors.like, ?_, ?_⟩
      · rw [filterMap_concat, houtward]
        exact congrArg _ (List.append_nil _).symm
      · rw [List.flatMap_append, List.flatMap_singleton, List.append_nil]
        exact hmirrors.lines
      · rw [hbooth]
        exact hmirrors.inside }

/-- Every step, as long as no thread begins anything but a record of its own. -/
theorem step (h : Accounts e T r₀ ls r past now) {l : Shift V W} (hm : r.Step e l r')
    (hc : ∀ x ∈ l.label?, ∀ t call, x.begun? = some (t, call) → t ∈ T ∧ call.Emits e)
    (hs : ∀ t, ∀ s ∈ l.asked? t, s.Steady) :
    ∃ past' now', Accounts e T r₀ (ls ++ [l]) r' past' now' := by
  have apart {t t' : ThreadId} {s : Sink W} : (if t = t' then some s else none).toList =
      if t = t' then (if t = t then some s else none).toList else [] := by
    by_cases ht : t = t' <;> simp [ht]
  cases hm with
  | stir hm hb hsh => exact ⟨past, _, h.stir hm hsh (hc _ rfl)⟩
  | swap he => exact ⟨_, _, h.swap he⟩
  | @ask t new hi he =>
    refine ⟨past, now, h.go rfl rfl (fun _ => apart) (fun _ => (ite_self _).symm) ?_ ?_ ?_ ?_⟩
    · simp [he, Shift.asked?, Errand.new?]
    · simp [he, Shift.handed?, Errand.old?]
    · exact fun hsh => h.shut (shut_of_update hsh (by simp [Errand.Locks]))
    · intro y hy s hsome
      cases hy
      cases hsome
      exact hs t new (if_pos rfl)
  | @enter t new he hsh hb =>
    refine ⟨past, now, h.go rfl rfl (fun _ => (ite_self _).symm) (fun _ => (ite_self _).symm)
      ?_ ?_ (fun _ => hb) ?_⟩
    · simp [he, Shift.asked?, Errand.new?]
    · simp [he, Shift.handed?, Errand.old?]
    · intro y hy s hsome
      cases hy
      exact h.steady t _ he s hsome
  | @leave t old he =>
    refine ⟨past, now, h.go rfl rfl (fun _ => (ite_self _).symm) (fun _ => (ite_self _).symm)
      ?_ ?_ (fun _ => h.shut ⟨t, _, he, trivial⟩) ?_⟩
    · simp [he, Shift.asked?, Errand.new?]
    · simp [he, Shift.handed?, Errand.old?]
    · intro y hy s hsome
      cases hy
      contradiction
  | @hand t old he =>
    refine ⟨past, now, h.go rfl rfl (fun _ => (ite_self _).symm) (fun _ => apart) ?_ ?_ ?_ ?_⟩
    · simp [he, Shift.asked?, Errand.new?]
    · simp [he, Shift.handed?, Errand.old?]
    · exact fun hsh => h.shut (shut_of_update hsh (by simp))
    · exact nofun

/-- The accounts of a run, as long as no thread begins anything but a record of its own and all
sinks are steady. -/
theorem of_run (h₀ : Accounts e T r₀ [] r₀ [] ⟨(r₀.world.booth e).sink, []⟩) (h : Run e r₀ ls r)
    (hc : ∀ l, .stir l ∈ ls → ∀ t call, l.begun? = some (t, call) → t ∈ T ∧ call.Emits e)
    (hs : ∀ t new, .ask t new ∈ ls → new.Steady) :
    ∃ past now, Accounts e T r₀ ls r past now := by
  induction h with
  | start => exact ⟨_, _, h₀⟩
  | @step ls r r' shift _ hm ih =>
    obtain ⟨past, now, hacc⟩ := ih (fun l hl => hc l (List.mem_append_left _ hl))
      fun t new hl => hs t new (List.mem_append_left _ hl)
    refine hacc.step hm (fun x hx => ?_) fun t s hx => ?_
    · cases shift with
      | stir l =>
        cases hx
        exact hc x (by simp)
      | ask | enter | swap | leave | hand => contradiction
    · cases shift with
      | ask t' new =>
        have hx' : (if t' = t then some new else none) = some s := hx
        split at hx'
        · cases hx'
          exact hs t' s (by simp)
        · contradiction
      | stir | enter | swap | leave | hand => contradiction

/-- The events are those of the records that were completed, in the same order. -/
theorem told (h : Accounts e T r₀ ls r past now) :
    List.Forall₂ r.world.Tells ((ls.filterMap Shift.label?).filterMap Label.record?)
      ((past ++ [now]).flatMap (·.events)) := by
  obtain ⟨ls', w, _, houtward, hmirrors⟩ := h.mirrored .stdout trivial
  have htold := hmirrors.lines.told
  rw [← filterMap_record?_outward, houtward, filterMap_record?_outward] at htold
  refine htold.imp fun x ev htells => htells.mono fun n hn => ?_
  rw [hmirrors.like.thread]
  exact hn

/-- What sinks that show what they take have received, one after the other. -/
theorem joined (h : Accounts e T r₀ ls r past now) (hs : ∀ x ∈ past ++ [now], x.sink ≠ .discard) :
    (exchanges ls).flatMap (fun x => Chunk.content x.received) ++ now.stream =
      ((past ++ [now]).flatMap (·.events)).flatMap Event.bytes := by
  have hstream : ∀ x ∈ past ++ [now], x.stream = x.events.flatMap Event.bytes := fun x hx => by
    rw [Stint.stream, Sink.visible_of_ne (hs x hx)]
  have hreceived : (exchanges ls).flatMap (fun x => Chunk.content x.received) =
      past.flatMap Stint.stream := by
    have hmap := congrArg (List.map Prod.snd) h.taken
    rw [List.map_map, List.map_map] at hmap
    rw [List.flatMap_def, List.flatMap_def]
    exact congrArg List.flatten hmap
  have hjoined :
      past.flatMap Stint.stream ++ now.stream = (past ++ [now]).flatMap Stint.stream := by
    rw [List.flatMap_append, List.flatMap_singleton]
  rw [hreceived, hjoined, List.flatMap_assoc]
  exact List.flatMap_congr hstream

/-- The thread that holds the lock of the sink to make a record can go on. -/
theorem exists_step_inside (h : Accounts e T r₀ ls r past now) {task : Task}
    (hi : (r.world.booth e).inside = some (t, task)) : ∃ l r', r.Step e l r' ∧ l.Ongoing := by
  have hopen : ¬ r.Shut := fun hsh => by
    rw [h.shut hsh] at hi
    contradiction
  obtain ⟨_, w, _, _, hmirrors⟩ := h.mirrored .stdout trivial
  obtain ⟨k, name, hs, _⟩ := hmirrors.lines.inside t _ (hmirrors.inside_some hi)
  have hp : (r.world.thread t).stage.pending? = some (e, k, name) := by
    rw [hmirrors.like.thread t, hs]
    rfl
  have goes {w : World V (Hall W)} (hm : r.world.Part t e k name w) :
      ∃ l r', r.Step e l r' ∧ l.Ongoing :=
    ⟨_, _, .part hopen hp hm, trivial⟩
  cases task with
  | time => exact goes (.time hi)
  | tag time => exact goes (.tag hi)
  | encode ev => exact goes (.encode hi)
  | work ev j =>
    by_cases hj : ∃ result, j = .done result
    · obtain ⟨result, rfl⟩ := hj
      exact ⟨_, _, .record (fun hsh => absurd hsh hopen) hp hi, trivial⟩
    · exact goes (.work hi fun result hr => hj ⟨result, hr⟩)

/-- Nobody waits for ever: unless all calls have come to their ends, one of them can go on. -/
theorem exists_step (h : Accounts e T r₀ ls r past now)
    (hcall : ∃ t, r.errand t ≠ none ∨ (r.world.thread t).stage.pending? ≠ none) :
    ∃ l r', r.Step e l r' ∧ l.Ongoing := by
  cases hi : (r.world.booth e).inside with
  | some x => exact h.exists_step_inside hi
  | none =>
    by_cases hsh : r.Shut
    · obtain ⟨t, x, hx, hlocks⟩ := hsh
      cases x with
      | holding new => exact ⟨_, _, .swap hx, trivial⟩
      | leaving old => exact ⟨_, _, .leave hx, trivial⟩
      | asking | returning => exact hlocks.elim
    · obtain ⟨t, he | hp⟩ := hcall
      · obtain ⟨x, hx⟩ := Option.ne_none_iff_exists'.mp he
        cases x with
        | asking new => exact ⟨_, _, .enter hx hsh hi, trivial⟩
        | returning old => exact ⟨_, _, .hand hx, trivial⟩
        | holding new | leaving old => exact absurd ⟨t, _, hx, trivial⟩ hsh
      · obtain ⟨⟨e', k, name⟩, hp⟩ := Option.ne_none_iff_exists'.mp hp
        obtain ⟨_, _, _, _, hmirrors⟩ := h.mirrored .stdout trivial
        obtain ⟨rfl, _⟩ := hmirrors.emitting hp
        exact ⟨_, _, .part hsh hp (.enter hi), trivial⟩

end Accounts

variable {r₀ : Relay V W} {ls : List (Shift V W)}

/-- The stints of the sinks that a run has installed, the one that is installed `now` at the end:
which sinks they were, in this order, what each of them received and what was handed back to whom;
and that the events of all stints are those that the same threads would have recorded on any single
sink, by the same steps but for those within an emission. -/
structure Redirected (e : EmitterId) (r₀ : Relay V W) (ls : List (Shift V W)) (r : Relay V W)
    (past : List (Stint W)) (now : Stint W) : Prop where
  chain : (past ++ [now]).map (·.sink) = (r₀.world.booth e).sink :: (exchanges ls).map (·.new)
  taken : (exchanges ls).map (fun x => (x.old, Chunk.content x.received)) =
    past.map fun x => (x.back, x.stream)
  growing : Chunk.content (r.world.booth e).arrived ++ now.sink.visible (r.world.booth e).left =
    now.sink.visible ((now.events ++ (r.world.booth e).event?.toList).flatMap Event.bytes)
  settled : (r.world.booth e).inside = none →
    Chunk.content (r.world.booth e).arrived = now.stream ∧ (r.world.booth e).sink = now.back
  asked : ∀ t, ls.filterMap (Shift.asked? t) =
    (exchangesOf t ls).map (·.new) ++ ((r.errand t).bind Errand.new?).toList
  handed : ∀ t, (exchangesOf t ls).map (·.old) =
    ls.filterMap (Shift.handed? t) ++ ((r.errand t).bind Errand.old?).toList
  told : List.Forall₂ r.world.Tells ((ls.filterMap Shift.label?).filterMap Label.record?)
    ((past ++ [now]).flatMap (·.events))
  single : ∀ s : Sink W, s.Steady → ∃ ls' w,
    Trail World.Stir (r₀.world.setBooth e { sink := s }) ls' w ∧
      ls'.filter Label.outward = (ls.filterMap Shift.label?).filter Label.outward ∧
      Chunk.content (w.booth e).arrived =
        s.visible (((past ++ [now]).flatMap (·.events)).flatMap Event.bytes) ∧
      ((∀ x ∈ s :: (past ++ [now]).map (·.sink), x ≠ .discard) →
        (exchanges ls).flatMap (fun x => Chunk.content x.received) ++ now.stream =
          Chunk.content (w.booth e).arrived)

/-- Whatever threads record through an emitter, and however often and whenever they replace its
sink: each sink receives whole records while it is installed, one sink after the other receives just
what a single one would have received, and each call that replaces the sink hands back the one that
was installed by the call before. Nobody waits for ever. -/
theorem redirection_loses_nothing (h₀ : ∀ t, r₀.world.thread t = {}) (hn : r₀.world.tags = 0)
    (hb : (r₀.world.booth e).Opens) (he : ∀ t, r₀.errand t = none) (h : Run e r₀ ls r)
    (hc : ∀ l, .stir l ∈ ls → ∀ t call, l.begun? = some (t, call) → call.Emits e)
    (hs : ∀ t new, .ask t new ∈ ls → new.Steady) :
    (∃ past now, Redirected e r₀ ls r past now) ∧
      ((∃ t, r.errand t ≠ none ∨ (r.world.thread t).stage.pending? ≠ none) →
        ∃ l r', r.Step e l r' ∧ l.Ongoing) := by
  let T : Finset ThreadId :=
    ((ls.filterMap Shift.label?).filterMap fun l => l.begun?.map (·.1)).toFinset
  have hcT : ∀ l, .stir l ∈ ls → ∀ t call, l.begun? = some (t, call) → t ∈ T ∧ call.Emits e := by
    intro l hl t call hbegun
    refine ⟨List.mem_toFinset.mpr ?_, hc l hl t call hbegun⟩
    refine List.mem_filterMap.mpr ⟨l, List.mem_filterMap.mpr ⟨_, hl, rfl⟩, ?_⟩
    rw [hbegun]
    rfl
  obtain ⟨past, now, hacc⟩ := Accounts.of_run (.start h₀ hn hb he) h hcT hs
  refine ⟨⟨past, now, hacc.chain, hacc.taken, hacc.serves.keeps.bytes, hacc.serves.of_empty,
    hacc.asked, hacc.handed, hacc.told, fun s hsteady => ?_⟩, hacc.exists_step⟩
  obtain ⟨ls', w, htrail, houtward, hmirrors⟩ := hacc.mirrored s hsteady
  refine ⟨ls', w, htrail, houtward, hmirrors.content, fun hseen => ?_⟩
  obtain ⟨hs, hsinks⟩ := List.forall_mem_cons.mp hseen
  rw [hmirrors.content, Sink.visible_of_ne hs]
  exact hacc.joined fun x hx => hsinks _ (List.mem_map_of_mem hx)

/-- Threads whose only emitter writes to the standard output. -/
def lobby : Relay Unit Faulty := { world := .lobby }

theorem nonempty_A : "A" ≠ "" := by decide

def nameA : LockName := ⟨"A", nonempty_A⟩

/-- While one thread makes its record another one wants to redirect the stream, which it can when
the record is complete. The next record goes to the new sink, and then the old one is put back. -/
def detour : List (Shift Unit Faulty) :=
  [.stir (.begin 0 (.emit 0 .attempt "A")), .stir (.part 0), .ask 1 .stderr, .stir (.part 0),
    .stir (.part 0), .stir (.part 0), .stir (.part 0), .stir (.part 0),
    .stir (.record 0 .attempt nameA), .enter 1, .stir (.begin 2 (.emit 0 .wait "A")),
    .swap ⟨1, .stdout, .stderr, [.bytes (Event.bytes ⟨.attempt, ⟨0⟩, "1", nameA⟩), .flushed]⟩,
    .leave 1, .stir (.part 2), .hand 1 .stdout, .stir (.part 2), .stir (.part 2), .stir (.part 2),
    .stir (.part 2), .ask 1 .stdout, .stir (.part 2), .stir (.record 2 .wait nameA), .enter 1,
    .swap ⟨1, .stderr, .stdout, [.bytes (Event.bytes ⟨.wait, ⟨0⟩, "2", nameA⟩), .flushed]⟩,
    .leave 1, .hand 1 .stderr]

theorem exists_detour : ∃ r, Run 0 lobby detour r ∧ (r.world.booth 0).inside = none := by
  have hasking {s : Sink Faulty} : ¬ ∃ y ∈ some (Errand.asking s), y.Locks := by
    simp [Errand.Locks]
  have hreturning {s : Sink Faulty} : ¬ ∃ y ∈ some (Errand.returning s), y.Locks := by
    simp [Errand.Locks]
  have hnone : ¬ ∃ y ∈ (none : Option (Errand Faulty)), y.Locks := by
    simp
  have hlobby (t : ThreadId) (_ : t ≠ 1) : lobby.errand t = none := rfl
  have hgo {errand : ThreadId → Option (Errand Faulty)} {x : Option (Errand Faulty)}
      (he : ∀ t ≠ 1, errand t = none) (t : ThreadId) (ht : t ≠ 1) :
      Function.update errand 1 x t = none := by
    rw [Function.update_of_ne ht]
    exact he t ht
  have hwrite {bytes : List UInt8} (r : Except IoError Unit) : Job.write bytes ≠ .done r := by
    simp
  have hflush (r : Except IoError Unit) : Job.flush ≠ .done r := by
    simp
  constructor
  constructor
  · apply Run.head (.stir (.begin rfl) (fun _ _ _ => rfl) fun _ => rfl)
    apply Run.head (.part (not_shut hnone hlobby) rfl (.enter rfl))
    apply Run.head (.ask rfl rfl)
    have hask := hgo (x := some (.asking .stderr)) hlobby
    apply Run.head (.part (not_shut hasking hask) rfl (.time rfl))
    apply Run.head (.part (not_shut hasking hask) rfl (.tag rfl))
    apply Run.head (.part (not_shut hasking hask) rfl (.encode rfl))
    apply Run.head (.part (not_shut hasking hask) rfl (.work rfl hwrite))
    apply Run.head (.part (not_shut hasking hask) rfl (.work rfl hflush))
    apply Run.head (.record (fun _ => rfl) rfl rfl)
    apply Run.head (.enter rfl (not_shut hasking hask) rfl)
    apply Run.head (.stir (.begin rfl) (fun _ _ h => by cases h; rfl) fun _ => rfl)
    apply Run.head (.swap rfl)
    apply Run.head (.leave rfl)
    have hback := hgo (x := some (.returning .stdout)) (hgo (x := some (.leaving .stdout))
      (hgo (x := some (.holding .stderr)) hask))
    apply Run.head (.part (not_shut hreturning hback) rfl (.enter rfl))
    apply Run.head (.hand rfl)
    have hhand := hgo (x := none) hback
    apply Run.head (.part (not_shut hnone hhand) rfl (.time rfl))
    apply Run.head (.part (not_shut hnone hhand) rfl (.tag rfl))
    apply Run.head (.part (not_shut hnone hhand) rfl (.encode rfl))
    apply Run.head (.part (not_shut hnone hhand) rfl (.work rfl hwrite))
    apply Run.head (.ask rfl rfl)
    have hagain := hgo (x := some (.asking .stdout)) hhand
    apply Run.head (.part (not_shut hasking hagain) rfl (.work rfl hflush))
    apply Run.head (.record (fun _ => rfl) rfl rfl)
    apply Run.head (.enter rfl (not_shut hasking hagain) rfl)
    apply Run.head (.swap rfl)
    apply Run.head (.leave rfl)
    apply Run.head (.hand rfl)
    exact .start
  · rfl

theorem redirection_loses_nothing_detour : ∃ (r : Relay Unit Faulty) (past : List (Stint Faulty))
    (now : Stint Faulty), Run 0 lobby detour r ∧ (r.world.booth 0).inside = none ∧
      (past ++ [now]).map (·.sink) = [.stdout, .stderr, .stdout] ∧
      past.map (·.back) = [.stdout, .stderr] ∧
      List.Forall₂ r.world.Tells [(0, .attempt, nameA), (2, .wait, nameA)]
        ((past ++ [now]).flatMap (·.events)) := by
  obtain ⟨r, h, hfree⟩ := exists_detour
  have hb : (lobby.world.booth 0).Opens := ⟨trivial, rfl, rfl⟩
  have hc : ∀ l, Shift.stir l ∈ detour → ∀ t call, l.begun? = some (t, call) → call.Emits 0 := by
    simp [detour, Label.begun?, Call.Emits]
  have hs : ∀ t new, Shift.ask t new ∈ detour → new.Steady := by
    intro t new hm
    have hnew : t = 1 ∧ new = .stderr ∨ t = 1 ∧ new = .stdout := by simpa [detour] using hm
    rcases hnew with ⟨_, rfl⟩ | ⟨_, rfl⟩ <;> trivial
  obtain ⟨past, now, hread⟩ :=
    (redirection_loses_nothing (fun _ => rfl) rfl hb (fun _ => rfl) h hc hs).1
  refine ⟨r, past, now, h, hfree, hread.chain, ?_, hread.told⟩
  have hback := congrArg (List.map Prod.fst) hread.taken
  rw [List.map_map, List.map_map] at hback
  exact hback.symm

section Undisturbed

/-- A call that nobody disturbs replaces the sink as if in one step. -/
theorem run_of_replace (hi : (r.world.thread t).stage = .idle) (he : r.errand t = none)
    (hs : ¬ r.Shut) (hb : (r.world.booth e).inside = none) (new : Sink W) :
    ∃ r', Run e r [.ask t new, .enter t,
        .swap ⟨t, (r.world.booth e).sink, new, (r.world.booth e).arrived⟩, .leave t,
        .hand t (r.world.booth e).sink] r' ∧
      r'.world = r.exchange e new ∧ r'.errand = r.errand := by
  have hopen : ¬ (r.go t (some (.asking new))).Shut := fun hsh =>
    hs (shut_of_update hsh (by simp [Errand.Locks]))
  refine ⟨_, .head (.ask hi he) (.head (.enter (errand_go_self ..) hopen hb)
    (.head (.swap (errand_go_self ..)) (.head (.leave (errand_go_self ..))
      (.head (.hand (errand_go_self ..)) .start)))), rfl, ?_⟩
  simp only [go, Function.update_idem]
  rw [← he, Function.update_eq_self]

end Undisturbed

end Relay

namespace Desk

/-- The sinks and the time are those of a hall. -/
structure Shows (d : Desk) (h : Hall Labelled) : Prop where
  sinks : ∀ e, d.sinks.get e = (h.booth e).sink
  clock : d.clock = h.now

variable {d : Desk} {h : Hall Labelled}

/-- A record comes to the same in both. -/
theorem Shows.record (hd : d.Shows h) (e : EmitterId) (k : Kind) (tid : String) (lock : LockName) :
    (d.record e k tid lock).1 = (h.record e k tid lock).1 ∧
      (d.record e k tid lock).2.Shows (h.record e k tid lock).2 := by
  have hput : (d.sinks.get e).put (Event.bytes ⟨k, d.clock, tid, lock⟩) =
      (h.booth e).sink.put (Event.bytes ⟨k, h.now, tid, lock⟩) := by
    rw [hd.sinks, hd.clock]
  have hbooth (e' : EmitterId) : ((h.record e k tid lock).2.booth e').sink = if e = e' then
      ((h.booth e).sink.put (Event.bytes ⟨k, h.now, tid, lock⟩)).after else (h.booth e').sink := by
    have hset (b : Booth Labelled) :
        (h.setBooth e b).booth e' = if e = e' then b else h.booth e' := Table.get_set ..
    change ((h.setBooth e _).booth e').sink = _
    rw [hset, apply_ite Booth.sink]
  refine ⟨congrArg (fun r => r.result.mapError TraceError.sink) hput, fun e' => ?_, ?_⟩
  · rw [sinks_record, hbooth, hput, hd.sinks e']
  · exact (clock_deliver ..).trans hd.clock

/-- So does the exchange of a sink, which is handed back. -/
theorem Shows.replace {V : Type} {r : Relay V Labelled} (hd : d.Shows r.world.recorder)
    (e : EmitterId) (new : Sink Labelled) : (d.replace e new).1 = (r.world.booth e).sink ∧
      (d.replace e new).2.Shows (r.exchange e new).recorder := by
  refine ⟨hd.sinks e, fun e' => ?_, hd.clock⟩
  have hsinks : (d.replace e new).2.sinks.get e' = if e = e' then new else d.sinks.get e' :=
    Table.get_set ..
  have hbooth : (r.exchange e new).recorder.booth e' =
      if e = e' then { r.world.booth e with sink := new, arrived := [] } else r.world.booth e' :=
    World.booth_setBooth ..
  rw [hsinks, hbooth]
  split
  · rfl
  · exact hd.sinks e'

end Desk

end LockTrace
