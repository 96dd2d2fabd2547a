import LockTrace.Proofs.Workload.Roster
import Mathlib.Data.Fintype.EquivFin
import Mathlib.Logic.Function.Basic

namespace LockTrace

def Receipt.report? : Receipt → Option WorkerReport
  | .report r => some r
  | .timedOut | .closed => none

namespace Crew

/-- Where a worker is: at its task, past its report with its sender still there, or gone. -/
inductive Post
  | working
  | reported
  | gone

/-- The channel from workers to whoever waits for them: where each worker is, and the reports that
have been sent and not been taken. -/
structure Channel (n : Nat) where
  post : Fin n → Post
  queue : List WorkerReport

/-- What happens to a channel. -/
inductive Act (n : Nat)
  | report (t : Fin n) (r : WorkerReport)
  | leave (t : Fin n)
  | receive (x : Receipt)

namespace Act

variable {n : Nat}

def sent? : Act n → Option (Fin n × WorkerReport)
  | .report t r => some (t, r)
  | .leave _ | .receive _ => none

def receipt? : Act n → Option Receipt
  | .receive x => some x
  | .report _ _ | .leave _ => none

end Act

section Past

variable {n : Nat}

/-- Who has reported what, in order. -/
def sent (as : List (Act n)) : List (Fin n × WorkerReport) := as.filterMap Act.sent?

/-- The reports in order of arrival. -/
def arrivals (as : List (Act n)) : List WorkerReport := (sent as).map (·.2)

/-- What has been received. -/
def received (as : List (Act n)) : List Receipt := as.filterMap Act.receipt?

/-- The reports that have been received. -/
def heard (as : List (Act n)) : List WorkerReport := (received as).filterMap Receipt.report?

/-- Whose reports have been received, in order. -/
def speakers (as : List (Act n)) : List (Fin n) :=
  ((sent as).take (heard as).length).map (·.1)

variable (as : List (Act n)) (t : Fin n) (r : WorkerReport) (x : Receipt)

@[simp] theorem sent_report : sent (as ++ [.report t r]) = sent as ++ [(t, r)] :=
  List.filterMap_append

@[simp] theorem sent_leave : sent (as ++ [.leave t]) = sent as :=
  List.filterMap_append.trans (List.append_nil _)

@[simp] theorem sent_receive : sent (as ++ [.receive x]) = sent as :=
  List.filterMap_append.trans (List.append_nil _)

@[simp] theorem received_report : received (as ++ [.report t r]) = received as :=
  List.filterMap_append.trans (List.append_nil _)

@[simp] theorem received_leave : received (as ++ [.leave t]) = received as :=
  List.filterMap_append.trans (List.append_nil _)

@[simp] theorem received_receive : received (as ++ [.receive x]) = received as ++ [x] :=
  List.filterMap_append

end Past

/-- What an attempt to receive comes to: the oldest report, the deadline while a sender is there, or
the news that none is. -/
inductive Channel.Offers {n : Nat} : Channel n → Receipt → Channel n → Prop
  | report {post : Fin n → Post} {queue : List WorkerReport} (r : WorkerReport) :
      Offers ⟨post, r :: queue⟩ (.report r) ⟨post, queue⟩
  | timedOut {post : Fin n → Post} (t : Fin n) (ht : post t ≠ .gone) :
      Offers ⟨post, []⟩ .timedOut ⟨post, []⟩
  | closed {post : Fin n → Post} (hg : ∀ t, post t = .gone) :
      Offers ⟨post, []⟩ .closed ⟨post, []⟩

/-- The report of a worker that makes one. -/
def report? (w : String × Behaviour) : Option WorkerReport := w.2.result?.map fun r => ⟨w.1, r⟩

theorem filterMap_get (workers : List (String × Behaviour)) :
    (List.finRange workers.length).filterMap (fun t => report? (workers.get t)) =
      workers.filterMap report? := by
  conv_rhs => rw [← List.map_get_finRange workers, List.filterMap_map]
  rfl

/-- All that can happen between workers and whoever waits for them, at whatever moment the deadline
passes. A worker keeps its sender until it has reported, unless it dies without a word, and receipts
are taken as long as somebody is awaited. -/
inductive History (workers : List (String × Behaviour)) :
    List (Act workers.length) → Channel workers.length → Prop
  | start : History workers [] ⟨fun _ => .working, []⟩
  | report {as : List (Act workers.length)} {c : Channel workers.length} {r : WorkerReport}
      (t : Fin workers.length) (h : History workers as c) (hp : c.post t = .working)
      (hr : report? (workers.get t) = some r) :
      History workers (as ++ [.report t r])
        ⟨Function.update c.post t .reported, c.queue ++ [r]⟩
  | leave {as : List (Act workers.length)} {c : Channel workers.length} (t : Fin workers.length)
      (h : History workers as c) (hp : c.post t = .reported) :
      History workers (as ++ [.leave t]) ⟨Function.update c.post t .gone, c.queue⟩
  | vanish {as : List (Act workers.length)} {c : Channel workers.length} (t : Fin workers.length)
      (h : History workers as c) (hp : c.post t = .working)
      (hv : (workers.get t).2 = .vanishes) :
      History workers (as ++ [.leave t]) ⟨Function.update c.post t .gone, c.queue⟩
  | receive {as : List (Act workers.length)} {c c' : Channel workers.length} {x : Receipt}
      (h : History workers as c)
      (ha : awaited (expected (workers.map (·.1))) (received as) ≠ []) (ho : c.Offers x c') :
      History workers (as ++ [.receive x]) c'

/-- What a channel tells of its past: reports are taken in order of arrival, none is made twice, and
whoever is not at work has reported or died without a word. -/
structure Sound (workers : List (String × Behaviour)) (as : List (Act workers.length))
    (c : Channel workers.length) : Prop where
  queue : arrivals as = heard as ++ c.queue
  report : ∀ e ∈ sent as, report? (workers.get e.1) = some e.2
  once : ((sent as).map (·.1)).Nodup
  working : ∀ t, c.post t = .working → t ∉ (sent as).map (·.1)
  away : ∀ t, c.post t ≠ .working → t ∈ (sent as).map (·.1) ∨ (workers.get t).2 = .vanishes

section Sound

variable {workers : List (String × Behaviour)} {as : List (Act workers.length)}
  {c c' : Channel workers.length} {t : Fin workers.length} {r : WorkerReport}
  {rs : List WorkerReport} {x : Receipt}

theorem sound_start : Sound workers [] ⟨fun _ => .working, []⟩ where
  queue := rfl
  report := by simp [sent]
  once := by simp [sent]
  working := by simp [sent]
  away t h := absurd rfl h

theorem Sound.send (h : Sound workers as c) (hp : c.post t = .working)
    (hr : report? (workers.get t) = some r) :
    Sound workers (as ++ [.report t r])
      ⟨Function.update c.post t .reported, c.queue ++ [r]⟩ where
  queue := by
    have hqueue := h.queue
    rw [arrivals, heard] at hqueue
    simp [arrivals, heard, hqueue]
  report e he := by
    rw [sent_report] at he
    rcases List.mem_append.mp he with he | he
    · exact h.report e he
    · cases List.mem_singleton.mp he
      exact hr
  once := by
    rw [sent_report, List.map_append, List.map_singleton, ← List.concat_eq_append]
    exact h.once.concat (h.working t hp)
  working s hs := by
    by_cases hst : s = t
    · simp [hst] at hs
    · have hw : c.post s = .working := by simpa [hst] using hs
      simpa [hst] using h.working s hw
  away s hs := by
    by_cases hst : s = t
    · exact .inl (by simp [hst])
    · have hw : c.post s ≠ .working := by simpa [hst] using hs
      exact (h.away s hw).imp_left fun hmem => by
        rw [sent_report, List.map_append]
        exact List.mem_append_left _ hmem

theorem Sound.leave (h : Sound workers as c)
    (ht : t ∈ (sent as).map (·.1) ∨ (workers.get t).2 = .vanishes) :
    Sound workers (as ++ [.leave t]) ⟨Function.update c.post t .gone, c.queue⟩ where
  queue := by simpa [arrivals, heard] using h.queue
  report := by simpa using h.report
  once := by simpa using h.once
  working s hs := by
    by_cases hst : s = t
    · simp [hst] at hs
    · have hw : c.post s = .working := by simpa [hst] using hs
      simpa using h.working s hw
  away s hs := by
    rw [sent_leave]
    by_cases hst : s = t
    · rw [hst]
      exact ht
    · have hw : c.post s ≠ .working := by simpa [hst] using hs
      exact h.away s hw

theorem Sound.receive (h : Sound workers as c) (ho : c.Offers x c') :
    Sound workers (as ++ [.receive x]) c' := by
  have hpost : c'.post = c.post := by cases ho <;> rfl
  constructor
  · have hqueue := h.queue
    rw [arrivals] at hqueue
    rw [arrivals, heard, sent_receive, received_receive, List.filterMap_append, hqueue, heard]
    cases ho with
    | report r => simp [Receipt.report?]
    | timedOut s hs => simp [Receipt.report?]
    | closed hg => simp [Receipt.report?]
  · simpa using h.report
  · simpa using h.once
  · simpa [hpost] using h.working
  · simpa [hpost] using h.away

theorem History.sound (h : History workers as c) : Sound workers as c := by
  induction h with
  | start => exact sound_start
  | report t _ hp hr ih => exact ih.send hp hr
  | leave t _ hp ih => exact ih.leave (ih.away t (by simp [hp]))
  | vanish t _ _ hv ih => exact ih.leave (.inr hv)
  | receive _ _ ho ih => exact ih.receive ho

theorem mem_heard : r ∈ heard as ↔ .report r ∈ received as := by
  rw [heard, List.mem_filterMap]
  constructor
  · rintro ⟨x, hx, he⟩
    cases x with
    | report r =>
      cases he
      exact hx
    | timedOut => contradiction
    | closed => contradiction
  · exact fun hr => ⟨.report r, hr, rfl⟩

theorem heard_of_received (h : received as = rs.map .report) : heard as = rs := by
  rw [heard, h, List.filterMap_map]
  exact List.filterMap_some

theorem heard_of_last (hx : x.report? = none) (h : received as = rs.map .report ++ [x]) :
    heard as = rs := by
  rw [heard, h, List.filterMap_append, List.filterMap_map, List.filterMap_cons_none hx]
  exact (List.append_nil _).trans List.filterMap_some

theorem name_of_report (h : report? (workers.get t) = some r) : r.name = (workers.get t).1 := by
  obtain ⟨_, _, rfl⟩ := Option.map_eq_some_iff.mp h
  rfl

theorem Sound.mem_names (h : Sound workers as c) (ht : t ∈ (sent as).map (·.1)) :
    (workers.get t).1 ∈ (arrivals as).map (·.name) := by
  obtain ⟨e, he, rfl⟩ := List.mem_map.mp ht
  rw [← name_of_report (h.report e he)]
  exact List.mem_map_of_mem (List.mem_map_of_mem he)

theorem Sound.exists_worker (h : Sound workers as c) (hr : r ∈ arrivals as) :
    ∃ t ∈ (sent as).map (·.1), report? (workers.get t) = some r := by
  obtain ⟨e, he, rfl⟩ := List.mem_map.mp hr
  exact ⟨e.1, List.mem_map_of_mem he, h.report e he⟩

/-- The reports that arrived are the reports of those who sent one. -/
theorem Sound.arrivals_eq (h : Sound workers as c) :
    arrivals as = ((sent as).map (·.1)).filterMap fun t => report? (workers.get t) := by
  rw [List.filterMap_map, arrivals, ← List.filterMap_eq_map]
  exact List.filterMap_congr fun e he => (h.report e he).symm

theorem Sound.names_subset (h : Sound workers as c) :
    (arrivals as).map (·.name) ⊆ workers.map (·.1) := by
  intro n hn
  obtain ⟨r, hr, rfl⟩ := List.mem_map.mp hn
  obtain ⟨t, -, ht⟩ := h.exists_worker hr
  rw [name_of_report ht]
  exact List.mem_map_of_mem (workers.get_mem t)

theorem Sound.heard_eq (h : Sound workers as c) :
    heard as = ((sent as).take (heard as).length).map (·.2) := by
  rw [List.map_take, ← arrivals, h.queue, List.take_left]

/-- The reports that have been received are those of the workers who spoke. -/
theorem Sound.exists_speaker (h : Sound workers as c) (hr : r ∈ heard as) :
    ∃ t ∈ speakers as, (t, r) ∈ sent as ∧ report? (workers.get t) = some r := by
  rw [h.heard_eq] at hr
  obtain ⟨e, he, rfl⟩ := List.mem_map.mp hr
  have hsent := List.mem_of_mem_take he
  exact ⟨e.1, List.mem_map_of_mem he, hsent, h.report e hsent⟩

theorem Sound.heard_subset (h : Sound workers as c) :
    (heard as).map (·.name) ⊆ workers.map (·.1) := by
  intro n hn
  obtain ⟨r, hr, rfl⟩ := List.mem_map.mp hn
  obtain ⟨t, -, -, ht⟩ := h.exists_speaker hr
  rw [name_of_report ht]
  exact List.mem_map_of_mem (workers.get_mem t)

theorem History.taken (h : History workers as c) :
    Taken (workers.map (·.1)) (received as) := by
  induction h with
  | start => exact .nil
  | report t _ _ _ ih =>
    rw [received_report]
    exact ih
  | leave t _ _ ih | vanish t _ _ _ ih =>
    rw [received_leave]
    exact ih
  | receive _ ha _ ih =>
    rw [received_receive]
    exact ih.concat _ ha

end Sound

end Crew

end LockTrace
