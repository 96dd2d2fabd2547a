import LockTrace.Workload.Crew
import Mathlib.Data.List.Induction
import Mathlib.Data.List.Nodup
import Mathlib.Data.String.Basic

namespace LockTrace

/-- What is said of a worker that failed. -/
def WorkerReport.complaint? (r : WorkerReport) : Option String :=
  match r.result with
  | .ok () => none
  | .error e => some s!"{r.name}: {e}"

/-- What is noted of a worker that did not. -/
def WorkerReport.notice? (r : WorkerReport) : Option Notice :=
  match r.result with
  | .ok () => some (Crew.finished r.name)
  | .error _ => none

namespace Crew

section Expected

variable {n m : String} {ms names : List String}

theorem mem_insertName : n ∈ insertName m ms ↔ n = m ∨ n ∈ ms := by
  induction ms with
  | nil => simp [insertName]
  | cons k ks ih =>
    rw [insertName]
    split
    · rename_i heq
      subst heq
      simp
    · split
      · simp
      · rw [List.mem_cons, ih, List.mem_cons]
        exact or_left_comm

theorem pairwise_insertName (h : ms.Pairwise (· < ·)) : (insertName m ms).Pairwise (· < ·) := by
  induction ms with
  | nil => simp [insertName]
  | cons k ks ih =>
    obtain ⟨hk, hks⟩ := List.pairwise_cons.mp h
    rw [insertName]
    split
    · exact h
    · rename_i hne
      split
      · rename_i hlt
        refine List.pairwise_cons.mpr ⟨fun j hj => ?_, h⟩
        rcases List.mem_cons.mp hj with rfl | hj
        · exact hlt
        · exact lt_trans hlt (hk j hj)
      · rename_i hge
        refine List.pairwise_cons.mpr ⟨fun j hj => ?_, ih hks⟩
        rcases mem_insertName.mp hj with rfl | hj
        · exact lt_of_le_of_ne (not_lt.mp hge) (Ne.symm hne)
        · exact hk j hj

theorem expected_concat (names : List String) (n : String) :
    expected (names ++ [n]) = insertName n (expected names) := by
  rw [expected, List.foldl_append]
  rfl

theorem mem_expected : n ∈ expected names ↔ n ∈ names := by
  induction names using List.reverseRecOn with
  | nil => rfl
  | append_singleton names m ih =>
    rw [expected_concat, mem_insertName, ih, List.mem_append, List.mem_singleton]
    exact or_comm

theorem pairwise_expected (names : List String) : (expected names).Pairwise (· < ·) := by
  induction names using List.reverseRecOn with
  | nil => exact .nil
  | append_singleton names m ih =>
    rw [expected_concat]
    exact pairwise_insertName ih

theorem nodup_expected (names : List String) : (expected names).Nodup :=
  (pairwise_expected names).imp ne_of_lt

end Expected

/-- The names of which no report is among these. -/
def unheard (names : List String) (rs : List WorkerReport) : List String :=
  (expected names).diff (rs.map (·.name))

/-- The names that are still awaited after these receipts: nobody, once waiting was given up. -/
def awaited (pending : List String) : List Receipt → List String
  | [] => pending
  | .report r :: receipts => awaited (pending.erase r.name) receipts
  | .timedOut :: _ | .closed :: _ => []

/-- What waiting comes to, if it has come to its end with these receipts. -/
def answer? (names : List String) (receipts : List Receipt) : Option (Except String Outcome) :=
  if awaited (expected names) receipts = [] then some (wait names receipts).1 else none

/-- Receipts as they are taken, each while somebody is still awaited. -/
inductive Taken (names : List String) : List Receipt → Prop
  | nil : Taken names []
  | concat {receipts : List Receipt} (x : Receipt) (h : Taken names receipts)
      (ha : awaited (expected names) receipts ≠ []) : Taken names (receipts ++ [x])

section Wait

variable {n : String} {names pending failures : List String} {rs : List WorkerReport}
  {r : WorkerReport} {receipts : List Receipt}

theorem complaint_eq_none_iff : r.complaint? = none ↔ r = ⟨r.name, .ok ()⟩ := by
  obtain ⟨name, result⟩ := r
  cases result with
  | ok u => exact ⟨fun _ => rfl, fun _ => rfl⟩
  | error e => simp [WorkerReport.complaint?]

theorem conclude_eq_completed_iff : conclude failures = .ok .completed ↔ failures = [] := by
  cases failures with
  | nil => exact ⟨fun _ => rfl, fun _ => rfl⟩
  | cons f fs => simp [conclude]

theorem conclude_of_ne_nil (h : failures ≠ []) :
    conclude failures = .error ("; ".intercalate failures) := by
  rw [conclude, if_neg (by simpa using h)]

theorem ending_ne_stalled {P : Prop} [Decidable P] :
    (if P then some (conclude failures) else none) ≠ some (.ok (.stalled pending)) := by
  split
  · cases failures with
    | nil => simp [conclude]
    | cons f fs => simp [conclude]
  · exact nofun

theorem mem_unheard : n ∈ unheard names rs ↔ n ∈ names ∧ n ∉ rs.map (·.name) := by
  rw [unheard, (nodup_expected names).mem_sdiff_iff, mem_expected]

theorem unheard_eq_nil_iff : unheard names rs = [] ↔ ∀ n ∈ names, n ∈ rs.map (·.name) := by
  rw [List.eq_nil_iff_forall_not_mem]
  simp only [mem_unheard, not_and, not_not]

theorem pairwise_unheard (names : List String) (rs : List WorkerReport) :
    (unheard names rs).Pairwise (· < ·) :=
  (pairwise_expected names).sublist (List.diff_sublist ..)

theorem awaited_reports_append (rs : List WorkerReport) (receipts : List Receipt) :
    awaited pending (rs.map .report ++ receipts) =
      awaited (pending.diff (rs.map (·.name))) receipts := by
  induction rs generalizing pending with
  | nil => rfl
  | cons r rs ih =>
    rw [List.map_cons, List.cons_append, awaited, ih, List.map_cons, List.diff_cons]

theorem exists_reports_of_awaited (h : awaited pending receipts ≠ []) :
    ∃ rs : List WorkerReport, receipts = rs.map .report := by
  induction receipts generalizing pending with
  | nil => exact ⟨[], rfl⟩
  | cons x receipts ih =>
    cases x with
    | report r =>
      obtain ⟨rs, rfl⟩ := ih h
      exact ⟨r :: rs, rfl⟩
    | timedOut => exact absurd rfl h
    | closed => exact absurd rfl h

/-- One report takes its name off the list, and is noted or kept as a failure. -/
theorem waitFrom_report (hp : pending ≠ []) (r : WorkerReport) (receipts : List Receipt) :
    waitFrom pending failures (.report r :: receipts) =
      ((waitFrom (pending.erase r.name) (failures ++ r.complaint?.toList) receipts).1,
        r.notice?.toList ++
          (waitFrom (pending.erase r.name) (failures ++ r.complaint?.toList) receipts).2) := by
  have hne : pending.isEmpty = false := by simpa using hp
  obtain ⟨name, result⟩ := r
  cases result with
  | ok u =>
    rw [waitFrom, hne]
    simp [WorkerReport.complaint?, WorkerReport.notice?]
  | error e =>
    rw [waitFrom, hne]
    simp [WorkerReport.complaint?, WorkerReport.notice?]

/-- As long as somebody is awaited, what follows reports is waited for with what they left. -/
theorem waitFrom_reports_append (h : pending.diff (rs.map (·.name)) ≠ [])
    (receipts : List Receipt) :
    waitFrom pending failures (rs.map .report ++ receipts) =
      ((waitFrom (pending.diff (rs.map (·.name))) (failures ++ rs.filterMap (·.complaint?))
          receipts).1,
        rs.filterMap (·.notice?) ++ (waitFrom (pending.diff (rs.map (·.name)))
          (failures ++ rs.filterMap (·.complaint?)) receipts).2) := by
  induction rs generalizing pending failures with
  | nil => simp
  | cons r rs ih =>
    have hp : pending ≠ [] := by
      rintro rfl
      exact h (List.nil_diff _)
    rw [List.map_cons, List.diff_cons] at h
    rw [List.map_cons, List.cons_append, waitFrom_report hp, ih h, List.map_cons, List.diff_cons]
    simp only [List.filterMap_eq_flatMap_toList, List.flatMap_cons, List.append_assoc]

theorem awaited_nil (receipts : List Receipt) : awaited [] receipts = [] := by
  induction receipts with
  | nil => rfl
  | cons x receipts ih =>
    cases x with
    | report r => exact ih
    | timedOut => rfl
    | closed => rfl

theorem awaited_append (h : awaited pending receipts = []) (more : List Receipt) :
    awaited pending (receipts ++ more) = [] := by
  induction receipts generalizing pending with
  | nil =>
    rw [show pending = [] from h]
    exact awaited_nil more
  | cons x receipts ih =>
    cases x with
    | report r => exact ih h
    | timedOut => rfl
    | closed => rfl

/-- What comes after the end of waiting is not heeded. -/
theorem waitFrom_append (h : awaited pending receipts = []) (more : List Receipt) :
    waitFrom pending failures (receipts ++ more) = waitFrom pending failures receipts := by
  induction receipts generalizing pending failures with
  | nil =>
    rw [show pending = [] from h]
    cases more <;> rfl
  | cons x receipts ih =>
    by_cases hp : pending = []
    · subst hp
      rfl
    · cases x with
      | report r => rw [List.cons_append, waitFrom_report hp, waitFrom_report hp, ih h]
      | timedOut => rfl
      | closed => rfl

theorem taken_of_awaited (h : awaited (expected names) receipts ≠ []) : Taken names receipts := by
  induction receipts using List.reverseRecOn with
  | nil => exact .nil
  | append_singleton receipts x ih =>
    have hne : awaited (expected names) receipts ≠ [] := fun hnil => h (awaited_append hnil _)
    exact (ih hne).concat x hne

/-- Receipts that bring waiting to its end are taken until it has come. -/
theorem exists_taken (h : awaited (expected names) receipts = []) : ∃ taken rest,
    receipts = taken ++ rest ∧ Taken names taken ∧
      answer? names taken = some (wait names receipts).1 := by
  induction receipts using List.reverseRecOn with
  | nil => exact ⟨[], [], rfl, .nil, if_pos h⟩
  | append_singleton receipts x ih =>
    by_cases hx : awaited (expected names) receipts = []
    · obtain ⟨taken, rest, rfl, ht, ha⟩ := ih hx
      refine ⟨taken, rest ++ [x], List.append_assoc .., ht, ?_⟩
      rw [ha, wait, wait, waitFrom_append hx]
    · exact ⟨receipts ++ [x], [], (List.append_nil _).symm, (taken_of_awaited hx).concat x hx,
        if_pos h⟩

theorem unheard_concat (names : List String) (rs : List WorkerReport) (r : WorkerReport) :
    unheard names (rs ++ [r]) = (unheard names rs).erase r.name := by
  rw [unheard, List.map_append, List.diff_append, List.map_singleton, List.diff_cons,
    List.diff_nil, unheard]

theorem awaited_expected (names : List String) (rs : List WorkerReport)
    (receipts : List Receipt) :
    awaited (expected names) (rs.map .report ++ receipts) = awaited (unheard names rs) receipts :=
  awaited_reports_append rs receipts

theorem awaited_reports (names : List String) (rs : List WorkerReport) :
    awaited (expected names) (rs.map .report) = unheard names rs := by
  have happ := awaited_expected names rs []
  rw [List.append_nil] at happ
  exact happ

theorem wait_reports_append (h : unheard names rs ≠ []) (receipts : List Receipt) :
    (wait names (rs.map .report ++ receipts)).1 =
      (waitFrom (unheard names rs) (rs.filterMap (·.complaint?)) receipts).1 := by
  rw [wait, waitFrom_reports_append h, List.nil_append, unheard]

theorem answer_nil (names : List String) :
    answer? names [] = if unheard names [] = [] then some (conclude []) else none := by
  change (if expected names = [] then some (wait names []).1 else none) =
    if expected names = [] then some (conclude []) else none
  split
  · rename_i hnil
    rw [wait, hnil]
    rfl
  · rfl

theorem answer_report (h : unheard names rs ≠ []) (r : WorkerReport) :
    answer? names (rs.map .report ++ [.report r]) =
      if unheard names (rs ++ [r]) = [] then
        some (conclude ((rs ++ [r]).filterMap (·.complaint?)))
      else none := by
  rw [answer?, awaited_expected, wait_reports_append h, waitFrom_report h, unheard_concat, awaited,
    awaited]
  split
  · rename_i hnil
    rw [hnil, waitFrom]
    simp [List.filterMap_eq_flatMap_toList]
  · rfl

theorem answer_timedOut (h : unheard names rs ≠ []) :
    answer? names (rs.map .report ++ [.timedOut]) =
      some (.ok (.stalled (unheard names rs))) := by
  have hne : (unheard names rs).isEmpty = false := by simpa using h
  rw [answer?, awaited_expected, wait_reports_append h, waitFrom, hne]
  rfl

theorem answer_closed (h : unheard names rs ≠ []) :
    answer? names (rs.map .report ++ [.closed]) =
      some (.error ("workers exited without reporting: " ++
        ", ".intercalate (unheard names rs))) := by
  have hne : (unheard names rs).isEmpty = false := by simpa using h
  rw [answer?, awaited_expected, wait_reports_append h, waitFrom, hne]
  rfl

/-- Reports bring waiting to its end as soon as none is missing; until then it may be given up, or
find the channel closed. -/
theorem Taken.answer (h : Taken names receipts) : ∃ rs : List WorkerReport,
    (receipts = rs.map .report ∧ answer? names receipts =
      if unheard names rs = [] then some (conclude (rs.filterMap (·.complaint?))) else none) ∨
    (unheard names rs ≠ [] ∧ receipts = rs.map .report ++ [.timedOut] ∧
      answer? names receipts = some (.ok (.stalled (unheard names rs)))) ∨
    (unheard names rs ≠ [] ∧ receipts = rs.map .report ++ [.closed] ∧
      answer? names receipts = some (.error ("workers exited without reporting: " ++
        ", ".intercalate (unheard names rs)))) := by
  cases h with
  | nil => exact ⟨[], .inl ⟨rfl, answer_nil names⟩⟩
  | concat x h ha =>
    obtain ⟨rs, rfl⟩ := exists_reports_of_awaited ha
    rw [awaited_reports] at ha
    cases x with
    | report r => exact ⟨rs ++ [r], .inl ⟨by simp, answer_report ha r⟩⟩
    | timedOut => exact ⟨rs, .inr (.inl ⟨ha, rfl, answer_timedOut ha⟩)⟩
    | closed => exact ⟨rs, .inr (.inr ⟨ha, rfl, answer_closed ha⟩)⟩

end Wait

end Crew

end LockTrace
