import LockTrace.Threads.Basic
import Mathlib.Data.List.Induction
import Mathlib.Data.List.Nodup
import Mathlib.Logic.Function.Basic

namespace LockTrace

open scoped List

/-- A place in a list that was extended by one element is that of the new element or an old one. -/
theorem split_append_singleton {α : Type} {rs pre post : List α} {r q : α}
    (h : rs ++ [r] = pre ++ q :: post) : (pre = rs ∧ q = r ∧ post = []) ∨
      ∃ post', post = post' ++ [r] ∧ rs = pre ++ q :: post' := by
  rcases List.eq_nil_or_concat post with rfl | ⟨post', y, rfl⟩
  · obtain ⟨hpre, hq⟩ := List.append_inj' h rfl
    exact .inl ⟨hpre.symm, (List.singleton_inj.mp hq).symm, rfl⟩
  · rw [List.concat_eq_append, ← List.cons_append, ← List.append_assoc] at h
    obtain ⟨hrs, hy⟩ := List.append_inj' h rfl
    obtain rfl := List.singleton_inj.mp hy
    exact .inr ⟨post', List.concat_eq_append, hrs⟩

theorem filterMap_concat {α β : Type} (f : α → Option β) (xs : List α) (x : α) :
    (xs ++ [x]).filterMap f = xs.filterMap f ++ (f x).toList := by
  rw [List.filterMap_append]
  cases hf : f x <;> simp [hf]

theorem pair_sublist_append_of_notMem {α : Type} {ds ds' : List α} {a b : α} (h : b ∉ ds') :
    [a, b] <+ ds ++ ds' ↔ [a, b] <+ ds := by
  constructor
  · intro hs
    obtain ⟨l, l', he, hl, hl'⟩ := List.sublist_append_iff.mp hs
    rcases List.eq_nil_or_concat l' with rfl | ⟨l'', y, rfl⟩
    · rw [List.append_nil] at he
      exact he ▸ hl
    · rw [List.concat_eq_append, ← List.append_assoc] at he
      have he' : [a] ++ [b] = (l ++ l'') ++ [y] := he
      obtain ⟨_, hy⟩ := List.append_inj' he' rfl
      obtain rfl := List.singleton_inj.mp hy
      exact absurd (hl'.subset (by simp)) h
  · intro hs
    exact hs.trans (List.sublist_append_left ds ds')

/-- What comes one after the other in a list that was extended by one element. -/
theorem pair_sublist_append_singleton {α : Type} {ds : List α} {a b x : α} :
    [a, b] <+ ds ++ [x] ↔ [a, b] <+ ds ∨ x = b ∧ a ∈ ds := by
  by_cases hx : x = b
  · subst hx
    have hiff : [a] ++ [x] <+ ds ++ [x] ↔ [a] <+ ds := List.append_sublist_append_right [x]
    rw [List.singleton_append] at hiff
    rw [hiff, List.singleton_sublist]
    constructor
    · intro hm
      exact .inr ⟨rfl, hm⟩
    · rintro (hs | ⟨_, hm⟩)
      · exact hs.subset (List.mem_cons_self ..)
      · exact hm
  · rw [pair_sublist_append_of_notMem (by simpa using Ne.symm hx), or_iff_left fun h => hx h.1]

/-- What a thread does that bears on the stream: it makes a record, which is taken or refused, of an
attempt or of something else; it fails on a poisoned mutex; or a wait of it panics. An attempt is
made `again` if the thread keeps a guard of that name already. -/
inductive Deed
  | attempt (t : ThreadId) (name : LockName) (again taken : Bool)
  | record (t : ThreadId) (kind : Kind) (name : LockName) (taken : Bool)
  | balked (t : ThreadId) (name : LockName)
  | broke (t : ThreadId) (name : LockName)
  deriving DecidableEq, Repr

namespace Deed

/-- The record that the stream has of it. -/
def told? : Deed → Option (ThreadId × Kind × LockName)
  | .attempt t name _ true => some (t, .attempt, name)
  | .record t kind name true => some (t, kind, name)
  | _ => none

/-- Its record was refused. -/
def Lost : Deed → Prop
  | .attempt _ _ _ taken => taken = false
  | .record _ _ _ taken => taken = false
  | _ => False

theorem Lost.told? {d : Deed} (h : d.Lost) : d.told? = none := by
  cases d with
  | attempt t name again taken | record t kind name taken =>
    obtain rfl : taken = false := h
    rfl
  | balked | broke => rfl

/-- After the first refusal no record is taken. -/
def Closing (ds : List Deed) : Prop := ds.Pairwise fun d d' => d.Lost → d'.told? = none

/-- A thread gives up a mutex, says the stream, after a wait on it has panicked. The panic left the
mutex with the thread, but the stream knows of the wait only. -/
def Fouled (ds : List Deed) : Prop :=
  ∃ t name kind, kind.givesUp = true ∧ [.broke t name, .record t kind name true] <+ ds

theorem Fouled.append {ds : List Deed} (h : Fouled ds) (ds' : List Deed) : Fouled (ds ++ ds') := by
  obtain ⟨t, name, kind, hk, hs⟩ := h
  exact ⟨t, name, kind, hk, hs.trans (List.sublist_append_left ds ds')⟩

theorem not_fouled_nil : ¬ Fouled [] := by
  rintro ⟨t, name, kind, _, hs⟩
  simpa using hs.length_le

theorem fouled_append {ds : List Deed} {d : Deed} : Fouled (ds ++ [d]) ↔ Fouled ds ∨
    ∃ t name kind, kind.givesUp = true ∧ d = .record t kind name true ∧ .broke t name ∈ ds := by
  constructor
  · rintro ⟨t, name, kind, hk, hs⟩
    rcases pair_sublist_append_singleton.mp hs with hs | ⟨rfl, hm⟩
    · exact .inl ⟨t, name, kind, hk, hs⟩
    · exact .inr ⟨t, name, kind, hk, rfl, hm⟩
  · rintro (hf | ⟨t, name, kind, hk, rfl, hm⟩)
    · exact hf.append [d]
    · exact ⟨t, name, kind, hk, pair_sublist_append_singleton.mpr (.inr ⟨rfl, hm⟩)⟩

/-- What the stream is not told of changes nothing. -/
theorem fouled_append_of_untold {ds ds' : List Deed} (h : ∀ d ∈ ds', d.told? = none) :
    Fouled (ds ++ ds') ↔ Fouled ds := by
  have hiff (t : ThreadId) (name : LockName) (kind : Kind) :
      [.broke t name, .record t kind name true] <+ ds ++ ds' ↔
        [.broke t name, .record t kind name true] <+ ds :=
    pair_sublist_append_of_notMem fun hm => nomatch h _ hm
  simp only [Fouled, hiff]

end Deed

/-- What is known of a thread: the attempt that has no answer yet, the guard that it sleeps on, the
guards that it holds, and those that it holds while the stream believes it asleep. -/
structure Page where
  asked : Option LockName := none
  away : Option Guard := none
  hand : List Guard := []
  stale : List Guard := []

namespace Page

/-- The guards that hold their mutexes as far as the stream goes, and those left behind. -/
def guards (p : Page) : List Guard := p.hand ++ p.stale

/-- The names under which the thread holds something. -/
def names (p : Page) : List LockName := p.guards.map (·.name)

/-- The names that the thread holds as far as the stream goes. -/
def held (p : Page) : List LockName := p.hand.map (·.name)

/-- The names that the thread holds while the stream believes it asleep. -/
def left (p : Page) : List LockName := p.stale.map (·.name)

theorem mem_names {p : Page} {name : LockName} :
    name ∈ p.names ↔ name ∈ p.held ∨ name ∈ p.left := by
  rw [names, guards, List.map_append, List.mem_append]
  rfl

theorem not_mem_left {p : Page} (h : p.names.Nodup) {name : LockName} (hn : name ∈ p.held) :
    name ∉ p.left := by
  rw [names, guards, List.map_append, List.nodup_append] at h
  exact fun hm => h.2.2 name hn name hm rfl

/-- The thread neither waits for an answer nor sleeps. -/
structure Settled (p : Page) : Prop where
  asked : p.asked = none
  away : p.away = none

/-- The thread lets a guard go. -/
def drop (p : Page) (g : Guard) : Page :=
  { p with hand := p.hand.erase g, stale := p.stale.erase g }

variable {p : Page} {g : Guard}

theorem mem_map_erase (h : p.names.Nodup) (hg : g ∈ p.guards) {gs : List Guard}
    (hs : gs <+ p.guards) {name : LockName} :
    name ∈ (gs.erase g).map (·.name) ↔ name ∈ gs.map (·.name) ∧ name ≠ g.name := by
  have hnodup : gs.Nodup := hs.nodup h.of_map
  constructor
  · intro hm
    obtain ⟨x, hx, rfl⟩ := List.mem_map.mp hm
    obtain ⟨hne, hmem⟩ := hnodup.mem_erase_iff.mp hx
    refine ⟨List.mem_map_of_mem hmem, fun he => hne ?_⟩
    exact List.inj_on_of_nodup_map h (hs.subset hmem) hg he
  · rintro ⟨hm, hne⟩
    obtain ⟨x, hx, rfl⟩ := List.mem_map.mp hm
    refine List.mem_map_of_mem (hnodup.mem_erase_iff.mpr ⟨?_, hx⟩)
    rintro rfl
    exact hne rfl

theorem mem_held_drop (h : p.names.Nodup) (hg : g ∈ p.guards) {name : LockName} :
    name ∈ (p.drop g).held ↔ name ∈ p.held ∧ name ≠ g.name :=
  mem_map_erase h hg (List.sublist_append_left ..)

theorem mem_left_drop (h : p.names.Nodup) (hg : g ∈ p.guards) {name : LockName} :
    name ∈ (p.drop g).left ↔ name ∈ p.left ∧ name ≠ g.name :=
  mem_map_erase h hg (List.sublist_append_right ..)

end Page

/-- A page for each thread. -/
abbrev Book := ThreadId → Page

namespace Book

/-- No thread holds anything under the name. -/
def Fresh (b : Book) (name : LockName) : Prop := ∀ t, name ∉ (b t).names

/-- What a thread may do next, and its page afterwards. Whoever comes to hold something under a name
is the only one. -/
inductive Turn (b : Book) (t : ThreadId) : Option Deed → Page → Prop
  | quiet : Turn b t none (b t)
  | attempt (name : LockName) (taken : Bool) (h : (b t).Settled) :
      Turn b t (some (.attempt t name ((b t).names.contains name) taken))
        { b t with asked := if taken then some name else none }
  | denied (name : LockName) (taken : Bool) (ha : (b t).asked = some name)
      (hw : (b t).away = none) :
      Turn b t (some (.record t .tryFailed name taken)) { b t with asked := none }
  | balked (name : LockName) (ha : (b t).asked = some name) (hw : (b t).away = none) :
      Turn b t (some (.balked t name)) { b t with asked := none }
  | acquired (g : Guard) (taken : Bool) (ha : (b t).asked = some g.name)
      (hw : (b t).away = none) (hf : b.Fresh g.name) :
      Turn b t (some (.record t .acquired g.name taken))
        { b t with asked := none, hand := if taken then g :: (b t).hand else (b t).hand }
  | released (g : Guard) (taken : Bool) (h : (b t).Settled) (hg : g ∈ (b t).guards) :
      Turn b t (some (.record t .released g.name taken)) ((b t).drop g)
  | slept (g : Guard) (taken : Bool) (h : (b t).Settled) (hg : g ∈ (b t).guards) :
      Turn b t (some (.record t .wait g.name taken))
        (if taken then { (b t).drop g with away := some g } else b t)
  | woke (g : Guard) (taken : Bool) (ha : (b t).asked = none) (hw : (b t).away = some g)
      (hf : b.Fresh g.name) :
      Turn b t (some (.record t .woken g.name taken))
        { b t with away := none, hand := g :: (b t).hand }
  | broke (g : Guard) (ha : (b t).asked = none) (hw : (b t).away = some g)
      (hf : b.Fresh g.name) :
      Turn b t (some (.broke t g.name)) { b t with away := none, stale := g :: (b t).stale }

/-- The thread's page is replaced. -/
def turn (b : Book) (t : ThreadId) (p : Page) : Book := Function.update b t p

@[simp] theorem turn_self (b : Book) (t : ThreadId) (p : Page) : b.turn t p t = p :=
  Function.update_self ..

theorem turn_ne (b : Book) {t t' : ThreadId} (h : t' ≠ t) (p : Page) : b.turn t p t' = b t' :=
  Function.update_of_ne h ..

/-- The deeds of any number of threads, in order, and the book that they lead to. -/
inductive Course : List Deed → Book → Prop
  | start : Course [] fun _ => {}
  | turn {ds : List Deed} {b : Book} {d : Option Deed} {p : Page} (t : ThreadId)
      (h : Course ds b) (ht : Turn b t d p) : Course (ds ++ d.toList) (b.turn t p)

/-- No two guards in the hands of threads have a name in common. -/
structure Apart (b : Book) : Prop where
  within : ∀ t, (b t).names.Nodup
  across : ∀ {t t' : ThreadId} {name : LockName}, name ∈ (b t).names → name ∈ (b t').names → t = t'

/-- Letting go keeps names apart, and so does taking what nobody holds. -/
theorem Apart.turn_of {b : Book} (h : b.Apart) {t : ThreadId} {p : Page} (hp : p.names.Nodup)
    (hn : ∀ name ∈ p.names, name ∈ (b t).names ∨ b.Fresh name) : (b.turn t p).Apart where
  within t' := by
    by_cases ht : t' = t
    · subst ht
      rw [turn_self]
      exact hp
    · rw [turn_ne b ht]
      exact h.within t'
  across {t₁ t₂ name} h₁ h₂ := by
    have outside {t' : ThreadId} (ht : t' ≠ t) (hm : name ∈ p.names) (hm' : name ∈ (b t').names) :
        False := by
      rcases hn name hm with hm | hf
      · exact ht (h.across hm' hm)
      · exact hf t' hm'
    by_cases e₁ : t₁ = t <;> by_cases e₂ : t₂ = t
    · rw [e₁, e₂]
    · subst e₁
      rw [turn_self] at h₁
      rw [turn_ne b e₂] at h₂
      exact (outside e₂ h₁ h₂).elim
    · subst e₂
      rw [turn_self] at h₂
      rw [turn_ne b e₁] at h₁
      exact (outside e₁ h₂ h₁).elim
    · rw [turn_ne b e₁] at h₁
      rw [turn_ne b e₂] at h₂
      exact h.across h₁ h₂

theorem drop_names_sublist (p : Page) (g : Guard) : (p.drop g).names <+ p.names :=
  (List.Sublist.append List.erase_sublist List.erase_sublist).map _

theorem Apart.turn {b : Book} (h : b.Apart) {t : ThreadId} {d : Option Deed} {p : Page}
    (ht : Turn b t d p) : (b.turn t p).Apart := by
  have same {p : Page} (hs : p.names <+ (b t).names) : (b.turn t p).Apart :=
    h.turn_of ((h.within t).sublist hs) fun name hm => .inl (hs.subset hm)
  cases ht with
  | quiet | attempt | denied | balked => exact same (List.Sublist.refl _)
  | acquired g taken ha hw hf =>
    cases taken with
    | false => exact same (List.Sublist.refl _)
    | true =>
      refine h.turn_of (List.nodup_cons.mpr ⟨hf t, h.within t⟩) fun name hm => ?_
      rcases List.mem_cons.mp hm with rfl | hm
      · exact .inr hf
      · exact .inl hm
  | released g taken => exact same (drop_names_sublist (b t) g)
  | slept g taken =>
    cases taken with
    | false => exact same (List.Sublist.refl _)
    | true => exact same (drop_names_sublist (b t) g)
  | woke g taken ha hw hf =>
    refine h.turn_of (List.nodup_cons.mpr ⟨hf t, h.within t⟩) fun name hm => ?_
    rcases List.mem_cons.mp hm with rfl | hm
    · exact .inr hf
    · exact .inl hm
  | broke g ha hw hf =>
    have hp : Page.names { b t with away := none, stale := g :: (b t).stale } ~
        g.name :: (b t).names := List.perm_middle.map _
    refine h.turn_of (hp.nodup_iff.mpr (List.nodup_cons.mpr ⟨hf t, h.within t⟩)) fun name hm => ?_
    rcases List.mem_cons.mp (hp.mem_iff.mp hm) with rfl | hm
    · exact .inr hf
    · exact .inl hm

theorem Course.apart {ds : List Deed} {b : Book} (h : Course ds b) : b.Apart := by
  induction h with
  | start =>
    exact ⟨fun _ => List.nodup_nil, fun h => absurd h (List.not_mem_nil)⟩
  | turn t _ ht ih => exact ih.turn ht

theorem Turn.mem_left {b : Book} {t : ThreadId} {d : Option Deed} {p : Page} (h : Turn b t d p)
    (hn : (b t).names.Nodup) (hl : ∀ d' ∈ d, ¬ d'.Lost)
    (hg : ∀ name kind, kind.givesUp = true → d = some (.record t kind name true) →
      name ∉ (b t).left) {name : LockName} :
    name ∈ p.left ↔ name ∈ (b t).left ∨ d = some (.broke t name) := by
  have dropped {g : Guard} (hm : g ∈ (b t).guards) (hne : g.name ∉ (b t).left) :
      name ∈ ((b t).drop g).left ↔ name ∈ (b t).left := by
    rw [Page.mem_left_drop hn hm]
    exact ⟨And.left, fun h => ⟨h, fun he => hne (he ▸ h)⟩⟩
  cases h with
  | quiet | attempt | denied | balked | acquired | woke => simp [Page.left]
  | released g taken _ hm =>
    obtain rfl : taken = true := by simpa [Deed.Lost] using hl
    exact (dropped hm (hg g.name .released rfl rfl)).trans (by simp)
  | slept g taken _ hm =>
    obtain rfl : taken = true := by simpa [Deed.Lost] using hl
    exact (dropped hm (hg g.name .wait rfl rfl)).trans (by simp)
  | broke g => simp [Page.left, eq_comm, or_comm]

/-- In a course without losses the names that the stream is wrong about are those of panicked
waits, until one of them is given up. -/
theorem Course.mem_left {ds : List Deed} {b : Book} (h : Course ds b) (hl : ∀ d ∈ ds, ¬ d.Lost)
    (hf : ¬ Deed.Fouled ds) {t : ThreadId} {name : LockName} :
    name ∈ (b t).left ↔ .broke t name ∈ ds := by
  induction h generalizing t name with
  | start => simp [Page.left]
  | @turn ds b d p t' h ht ih =>
    have hf₀ : ¬ Deed.Fouled ds := fun h => hf (h.append _)
    have ih := @ih (fun d hd => hl d (List.mem_append_left _ hd)) hf₀
    have hb : .broke t name ∈ ds ++ d.toList ↔ .broke t name ∈ ds ∨ d = some (.broke t name) := by
      rw [List.mem_append, Option.mem_toList]
    rw [hb]
    by_cases he : t = t'
    · subst he
      rw [turn_self, ← ih]
      refine ht.mem_left (h.apart.within t) (fun d' hd' => ?_) fun name kind hk hd hn => hf ?_
      · exact hl d' (List.mem_append_right _ (Option.mem_toList.mpr hd'))
      · rw [hd, Option.toList_some, Deed.fouled_append]
        exact .inr ⟨t, name, kind, hk, rfl, ih.mp hn⟩
    · rw [turn_ne b he, ih, or_iff_left]
      rintro rfl
      cases ht
      exact he rfl

theorem Turn.of_givesUp {b : Book} {t t' : ThreadId} {kind : Kind} {name : LockName}
    {taken : Bool} {p : Page} (h : Turn b t (some (.record t' kind name taken)) p)
    (hk : kind.givesUp = true) : t' = t ∧ (b t).Settled := by
  cases h with
  | released g taken hs | slept g taken hs => exact ⟨rfl, hs⟩
  | denied | acquired | woke => contradiction

/-- A turn fouls a course just if it gives up a name that the stream is wrong about. -/
theorem Course.fouled_append {ds : List Deed} {b : Book} (h : Course ds b)
    (hl : ∀ d ∈ ds, ¬ d.Lost) {t : ThreadId} {d : Option Deed} {p : Page} (ht : Turn b t d p) :
    Deed.Fouled (ds ++ d.toList) ↔ Deed.Fouled ds ∨ ∃ name kind, kind.givesUp = true ∧
      d = some (.record t kind name true) ∧ name ∈ (b t).left := by
  cases d with
  | none => simp
  | some d =>
    rw [Option.toList_some, Deed.fouled_append]
    refine or_congr_right' fun hf => ?_
    simp only [h.mem_left hl hf, Option.some_inj]
    constructor
    · rintro ⟨t', name, kind, hk, rfl, hm⟩
      obtain ⟨rfl, _⟩ := ht.of_givesUp hk
      exact ⟨name, kind, hk, rfl, hm⟩
    · rintro ⟨name, kind, hk, rfl, hm⟩
      exact ⟨t, name, kind, hk, rfl, hm⟩

/-- A course with a closing stream: up to some moment every record is taken, and then none. -/
theorem Course.exists_told {ds : List Deed} {b : Book} (h : Course ds b)
    (hc : Deed.Closing ds) : ∃ xs ys b', ds = xs ++ ys ∧ Course xs b' ∧ (∀ d ∈ xs, ¬ d.Lost) ∧
      ∀ d ∈ ys, d.told? = none := by
  induction h with
  | start => exact ⟨[], [], _, rfl, .start, by simp, by simp⟩
  | @turn ds b d p t h ht ih =>
    obtain ⟨hds, _, hd⟩ := List.pairwise_append.mp hc
    obtain ⟨xs, ys, b', rfl, hx, hxs, hys⟩ := ih hds
    cases d with
    | none =>
      rw [Option.toList_none, List.append_nil]
      exact ⟨xs, ys, b', rfl, hx, hxs, hys⟩
    | some d =>
      by_cases htold : d.told? = none
      · refine ⟨xs, ys ++ [d], b', List.append_assoc .., hx, hxs, fun d' hd' => ?_⟩
        rcases List.mem_append.mp hd' with hd' | hd'
        · exact hys d' hd'
        · rw [List.mem_singleton.mp hd']
          exact htold
      · -- Nothing was lost before, so the course so far is the part that was told.
        refine ⟨(xs ++ ys) ++ [d], [], _, by simp, .turn t h ht, fun d' hd' hl => ?_, by simp⟩
        rcases List.mem_append.mp hd' with hd' | hd'
        · exact htold (hd d' hd' d (by simp) hl)
        · rw [List.mem_singleton.mp hd'] at hl
          exact htold hl.told?

end Book

end LockTrace
