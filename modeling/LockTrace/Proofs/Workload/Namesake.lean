import LockTrace.Proofs.Workload.Succession

namespace LockTrace.Crew

variable {workers : List (String × Behaviour)} {as : List (Act workers.length)}
  {c : Channel workers.length} {s t : Fin workers.length} {rs : List WorkerReport}
  {names pending : List String}

section Success

theorem answer_ne_completed {x : Receipt} (hx : x.report? = none) (h : unheard names rs ≠ []) :
    answer? names (rs.map .report ++ [x]) ≠ some (.ok .completed) := by
  cases x with
  | report r => contradiction
  | timedOut =>
    rw [answer_timedOut h]
    simp
  | closed =>
    rw [answer_closed h]
    simp

/-- Waiting has completed once somebody of every name has told of success. -/
theorem History.exists_success (h : History workers as c)
    (ho : outcome? workers as = some (.ok .completed)) {w : String × Behaviour}
    (hw : w ∈ workers) : ∃ t, (workers.get t).1 = w.1 ∧ (t, ⟨w.1, .ok ()⟩) ∈ sent as := by
  rcases h.ending ho with ⟨hm, hv⟩ | ⟨hne, x, hx, hre⟩
  · obtain ⟨r, hr, hname⟩ := List.mem_map.mp (missing_eq_nil_iff.mp hm w hw)
    obtain ⟨t, -, hsent, hreport⟩ := h.sound.exists_speaker hr
    have hnone := conclude_eq_completed_iff.mp hv.symm
    have hok := complaint_eq_none_iff.mp (List.filterMap_eq_nil_iff.mp hnone r hr)
    rw [← hname, ← hok]
    exact ⟨t, (name_of_report hreport).symm, hsent⟩
  · rw [outcome?, hre] at ho
    exact absurd ho (answer_ne_completed hx hne)

theorem waitFrom_successes (hr : ∀ r ∈ rs, r.complaint? = none)
    (h : pending.diff (rs.map (·.name)) = []) :
    (waitFrom pending [] (rs.map .report)).1 = .ok .completed := by
  induction rs generalizing pending with
  | nil =>
    rw [List.map_nil, List.diff_nil] at h
    subst h
    rfl
  | cons r rs ih =>
    by_cases hp : pending = []
    · subst hp
      rfl
    · rw [List.map_cons, List.diff_cons] at h
      have hnone : r.complaint? = none := hr r (List.mem_cons_self ..)
      rw [List.map_cons, waitFrom_report hp, hnone]
      exact ih (fun r' hr' => hr r' (List.mem_cons_of_mem r hr')) h

end Success

/-- Waiting for these workers only completes after each of them has told of success. -/
def Thorough (workers : List (String × Behaviour)) : Prop :=
  ∀ ⦃as c⦄, History workers as c → outcome? workers as = some (.ok .completed) →
    ∀ t, (t, ⟨(workers.get t).1, .ok ()⟩) ∈ sent as

/-- When waiting for these workers is over, each of them has been heard or is missed by its name. -/
def Watchful (workers : List (String × Behaviour)) : Prop :=
  ∀ ⦃as c v⦄, History workers as c → outcome? workers as = some v →
    ∀ t, t ∈ speakers as ∨ (workers.get t).1 ∈ missing workers as

theorem thorough_of_nodup (hn : (workers.map (·.1)).Nodup) : Thorough workers := by
  intro as c h ho t
  obtain ⟨s, hname, hs⟩ := h.exists_success ho (workers.get_mem t)
  obtain rfl := eq_of_name hn hname
  exact hs

theorem result_of_success {w : String × Behaviour}
    (h : report? w = some ⟨w.1, .ok ()⟩) : w.2 = .ends (.ok ()) := by
  obtain ⟨name, b⟩ := w
  cases b with
  | ends result => simpa [report?, Behaviour.result?] using h
  | panics payload => simp [report?, Behaviour.result?] at h
  | vanishes => contradiction
  | hangs => contradiction

/-- Without a success under some name, waiting does not complete. -/
theorem thorough_of_no_success {w : String × Behaviour} (hw : w ∈ workers)
    (hn : ∀ u ∈ workers, u.1 = w.1 → u.2 ≠ .ends (.ok ())) : Thorough workers := by
  intro as c h ho
  obtain ⟨t, hname, hs⟩ := h.exists_success ho hw
  have hreport := h.sound.report _ hs
  rw [← hname] at hreport
  exact absurd (result_of_success hreport) (hn _ (workers.get_mem t) hname)

theorem nodup_of_names (h : ∀ s t, (workers.get s).1 = (workers.get t).1 → s = t) :
    (workers.map (·.1)).Nodup := by
  rw [← List.map_get_finRange workers, List.map_map]
  exact (List.nodup_finRange _).map h

/-- Of two of one name, one succeeds without the other if a success under this name is possible. -/
theorem exists_overlooked (hn : ¬ (workers.map (·.1)).Nodup)
    (hall : ∀ w ∈ workers, ∃ u ∈ workers, u.1 = w.1 ∧ u.2 = .ends (.ok ())) :
    ∃ s t, s ≠ t ∧ (workers.get s).1 = (workers.get t).1 ∧
      (workers.get s).2 = .ends (.ok ()) := by
  by_contra hnone
  -- Otherwise one who succeeds under some name would bear it alone, and so no name is borne twice.
  refine hn (nodup_of_names fun s t hname => ?_)
  obtain ⟨u, hu, hsame, hs⟩ := hall _ (workers.get_mem s)
  obtain ⟨k, rfl⟩ := List.mem_iff_get.mp hu
  have hother : ∀ j, (workers.get k).1 = (workers.get j).1 → k = j := fun j hj => by
    by_contra hne
    exact hnone ⟨k, j, hne, hj, hs⟩
  exact (hother s hsame).symm.trans (hother t (hsame.trans hname))

/-- Then under every name one succeeds without the other. -/
theorem exists_success_beside (hne : s ≠ t) (hname : (workers.get s).1 = (workers.get t).1)
    (hs : (workers.get s).2 = .ends (.ok ()))
    (hall : ∀ w ∈ workers, ∃ u ∈ workers, u.1 = w.1 ∧ u.2 = .ends (.ok ())) :
    ∀ w ∈ workers, ∃ k, k ≠ t ∧ (workers.get k).1 = w.1 ∧
      (workers.get k).2 = .ends (.ok ()) := by
  intro w hw
  by_cases hw' : w.1 = (workers.get t).1
  · exact ⟨s, hne, hname.trans hw'.symm, hs⟩
  · obtain ⟨u, hu, hsame, hok⟩ := hall w hw
    obtain ⟨k, rfl⟩ := List.mem_iff_get.mp hu
    exact ⟨k, fun hk => hw' (hk ▸ hsame.symm), hsame, hok⟩

/-- While one worker is at its task, others may all have reported, and be waited for. -/
theorem exists_history_beside {ts : List (Fin workers.length)} (hts : ts.Nodup) (ht : t ∉ ts)
    (hm : unheard (workers.map (·.1)) (ts.filterMap fun s => report? (workers.get s)) = []) :
    ∃ as c, History workers as c ∧ c.post t = .working ∧
      outcome? workers as = some (wait (workers.map (·.1))
        ((ts.filterMap fun s => report? (workers.get s)).map .report)).1 := by
  obtain ⟨as, post, h, hnone, hothers, -⟩ := History.start.exists_ends hts fun _ _ => rfl
  have hpost : post t = .working := hothers t ht
  rw [List.nil_append] at h
  obtain ⟨taken, rest, hsplit, htaken, hanswer⟩ := exists_taken ((awaited_reports ..).trans hm)
  have hmore := congrArg (· ++ [Receipt.timedOut]) hsplit
  simp only [List.append_assoc] at hmore
  obtain ⟨as', queue, h', rfl, -⟩ :=
    h.exists_received hnone (.timedOut t (by simp [hpost])) hmore htaken
  exact ⟨as', _, h', hpost, hanswer⟩

/-- A worker is overlooked if under every name another one succeeds. -/
theorem not_thorough (hall : ∀ w ∈ workers, ∃ s, s ≠ t ∧ (workers.get s).1 = w.1 ∧
    (workers.get s).2 = .ends (.ok ())) : ¬ Thorough workers := by
  classical
  intro hthorough
  -- All others that succeed report, and then nobody is missing, with one still at its task.
  let ts := (List.finRange workers.length).filter fun s =>
    s ≠ t ∧ (workers.get s).2 = .ends (.ok ())
  have hmem : ∀ s, s ∈ ts ↔ s ≠ t ∧ (workers.get s).2 = .ends (.ok ()) := by simp [ts]
  have hreport : ∀ s ∈ ts, report? (workers.get s) = some ⟨(workers.get s).1, .ok ()⟩ := by
    intro s hs
    rw [report?, ((hmem s).mp hs).2]
    rfl
  have hm : unheard (workers.map (·.1)) (ts.filterMap fun s => report? (workers.get s)) = [] := by
    rw [unheard_eq_nil_iff, List.forall_mem_map]
    intro w hw
    obtain ⟨s, hne, hname, hs⟩ := hall w hw
    have hsent := (hmem s).mpr ⟨hne, hs⟩
    exact List.mem_map.mpr ⟨_, List.mem_filterMap.mpr ⟨s, hsent, hreport s hsent⟩, hname⟩
  have hok : ∀ r ∈ ts.filterMap fun s => report? (workers.get s), r.complaint? = none := by
    intro r hr
    obtain ⟨s, hs, he⟩ := List.mem_filterMap.mp hr
    rw [hreport s hs] at he
    cases he
    rfl
  obtain ⟨as, c, h, ht, ho⟩ := exists_history_beside ((List.nodup_finRange _).filter _)
    (fun ht => ((hmem t).mp ht).1 rfl) hm
  rw [wait, waitFrom_successes hok hm] at ho
  exact h.sound.working t ht (List.mem_map_of_mem (hthorough h ho t))

theorem watchful_of_apart (ha : ∀ s t, (workers.get s).1 = (workers.get t).1 →
    report? (workers.get s) ≠ none → s = t) : Watchful workers := by
  intro as c v h ho t
  refine or_iff_not_imp_right.mpr fun hmissing => ?_
  have hname : (workers.get t).1 ∈ (heard as).map (·.name) := by
    by_contra hnot
    exact hmissing (mem_missing.mpr ⟨List.mem_map_of_mem (workers.get_mem t), hnot⟩)
  obtain ⟨r, hr, hname⟩ := List.mem_map.mp hname
  obtain ⟨s, hs, -, hreport⟩ := h.sound.exists_speaker hr
  rw [name_of_report hreport] at hname
  obtain rfl := ha s t hname (hreport.trans_ne (Option.some_ne_none r))
  exact hs

/-- A worker is overlooked once one of its name has been heard. -/
theorem Watchful.apart (hw : Watchful workers) (hname : (workers.get s).1 = (workers.get t).1)
    (hs : report? (workers.get s) ≠ none) : s = t := by
  obtain ⟨r, hr⟩ := Option.ne_none_iff_exists'.mp hs
  obtain ⟨as, c, v, h, ho, hsent, hheard, -⟩ := exists_history_first hr
  rcases hw h ho t with hspoke | hmissing
  · rw [speakers, hsent, hheard] at hspoke
    exact (List.mem_singleton.mp hspoke).symm
  · rw [mem_missing, hheard, ← hname, ← name_of_report hr] at hmissing
    exact absurd (List.mem_singleton_self _) hmissing.2

/-- Waiting completes only after somebody of every name has told of success. So it is sure to wait
for the success of every worker just if no two share a name, or some name is without success; and
nobody is overlooked, however waiting ends, just if whoever can report shares its name with nobody.
-/
theorem thorough_iff (workers : List (String × Behaviour)) :
    (∀ as c, History workers as c → outcome? workers as = some (.ok .completed) →
      ∀ w ∈ workers, ∃ t, (workers.get t).1 = w.1 ∧ (t, ⟨w.1, .ok ()⟩) ∈ sent as) ∧
    (Thorough workers ↔ (workers.map (·.1)).Nodup ∨
      ∃ w ∈ workers, ∀ u ∈ workers, u.1 = w.1 → u.2 ≠ .ends (.ok ())) ∧
    (Watchful workers ↔ ∀ s t, (workers.get s).1 = (workers.get t).1 →
      report? (workers.get s) ≠ none → s = t) := by
  refine ⟨fun as c h ho w hw => h.exists_success ho hw, ⟨fun hthorough => ?_, ?_⟩,
    fun hw s t => hw.apart, watchful_of_apart⟩
  · by_contra hnor
    obtain ⟨hn, hnone⟩ := not_or.mp hnor
    have hall : ∀ w ∈ workers, ∃ u ∈ workers, u.1 = w.1 ∧ u.2 = .ends (.ok ()) := by
      simpa only [not_exists, not_and, not_forall, not_not, exists_prop] using hnone
    obtain ⟨s, t, hne, hname, hs⟩ := exists_overlooked hn hall
    exact not_thorough (exists_success_beside hne hname hs hall) hthorough
  · rintro (hn | ⟨w, hw, hn⟩)
    · exact thorough_of_nodup hn
    · exact thorough_of_no_success hw hn

/-- Two of one name, of whom one succeeds and the other never ends. -/
def twins : List (String × Behaviour) := [("twin", .ends (.ok ())), ("twin", .hangs)]

def elder : Fin twins.length := ⟨0, by decide⟩

def younger : Fin twins.length := ⟨1, by decide⟩

def twinActs : List (Act twins.length) :=
  [.report elder ⟨"twin", .ok ()⟩, .receive (.report ⟨"twin", .ok ()⟩)]

/-- Waiting for the two has completed while one of them is at its task. -/
theorem not_thorough_twins : ¬ Thorough twins ∧
    (∃ c, History twins twinActs c ∧ c.post younger = .working) ∧
    outcome? twins twinActs = some (.ok .completed) := by
  have hsent := History.start.report elder rfl rfl
  have hheard := hsent.receive (by decide) (.report _)
  have ho : outcome? twins twinActs = some (.ok .completed) := rfl
  refine ⟨fun hthorough => ?_, ⟨_, hheard, rfl⟩, ho⟩
  have htold := hthorough hheard ho younger
  exact hheard.sound.working younger rfl (List.mem_map_of_mem htold)

end LockTrace.Crew
