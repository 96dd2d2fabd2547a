import LockTrace.Proofs.Workload.Muster

namespace LockTrace.Crew

variable {workers : List (String × Behaviour)} {as : List (Act workers.length)}
  {post : Fin workers.length → Post} {queue : List WorkerReport} {x : Receipt}

theorem report_eq_none {w : String × Behaviour} (h : report? w = none) :
    w.2 = .vanishes ∨ w.2 = .hangs := by
  obtain ⟨name, b⟩ := w
  cases b with
  | ends result => contradiction
  | panics payload => contradiction
  | vanishes => exact .inl rfl
  | hangs => exact .inr rfl

theorem hangs_of_report {w : String × Behaviour} {r : WorkerReport} (h : report? w = some r) :
    w.2 ≠ .hangs := by
  intro hh
  rw [report?, hh] at h
  contradiction

/-- One more worker runs to its end, or is left hanging. -/
theorem History.exists_end (h : History workers as ⟨post, queue⟩) {t : Fin workers.length}
    (ht : post t = .working) : ∃ as' p, History workers as'
        ⟨Function.update post t p, queue ++ (report? (workers.get t)).toList⟩ ∧
      received as' = received as ∧ (p = .gone ↔ (workers.get t).2 ≠ .hangs) := by
  cases hr : report? (workers.get t) with
  | some r =>
    have hsent := h.report t ht hr
    have hleft := hsent.leave t (Function.update_self ..)
    rw [Function.update_idem] at hleft
    exact ⟨_, _, hleft, by rw [received_leave, received_report],
      iff_of_true rfl (hangs_of_report hr)⟩
  | none =>
    rw [Option.toList_none, List.append_nil]
    rcases report_eq_none hr with hv | hh
    · exact ⟨_, _, h.vanish t ht hv, by simp, iff_of_true rfl (by rw [hv]; nofun)⟩
    · refine ⟨as, .working, ?_, rfl, iff_of_false nofun fun hne => hne hh⟩
      rwa [← ht, Function.update_eq_self]

/-- So do any of them, one after the other. -/
theorem History.exists_ends {ts : List (Fin workers.length)} (h : History workers as ⟨post, queue⟩)
    (hts : ts.Nodup) (hw : ∀ t ∈ ts, post t = .working) : ∃ as' post', History workers as'
        ⟨post', queue ++ ts.filterMap fun t => report? (workers.get t)⟩ ∧
      received as' = received as ∧ (∀ t ∉ ts, post' t = post t) ∧
      ∀ t ∈ ts, post' t = .gone ↔ (workers.get t).2 ≠ .hangs := by
  induction ts generalizing as post queue with
  | nil => exact ⟨as, post, by simpa using h, rfl, fun _ _ => rfl, by simp⟩
  | cons t ts ih =>
    obtain ⟨hnew, hrest⟩ := List.nodup_cons.mp hts
    obtain ⟨as₁, p, h₁, hreceived, hp⟩ := h.exists_end (hw t (List.mem_cons_self ..))
    have hw₁ : ∀ s ∈ ts, Function.update post t p s = .working := by
      intro s hs
      have hne : s ≠ t := fun heq => hnew (heq ▸ hs)
      rw [Function.update_of_ne hne]
      exact hw s (List.mem_cons_of_mem t hs)
    obtain ⟨as₂, post₂, h₂, hreceived₂, hothers, hends⟩ := ih h₁ hrest hw₁
    refine ⟨as₂, post₂, ?_, hreceived₂.trans hreceived, fun s hs => ?_, fun s hs => ?_⟩
    · simp only [List.filterMap_eq_flatMap_toList, List.flatMap_cons, List.append_assoc] at h₂ ⊢
      exact h₂
    · rw [List.mem_cons, not_or] at hs
      rw [hothers s hs.2, Function.update_of_ne hs.1]
    · rcases List.mem_cons.mp hs with rfl | hs
      · rw [hothers s hnew, Function.update_self]
        exact hp
      · exact hends s hs

/-- Whatever waiting takes of the queue, and then of the empty channel, it can receive. -/
theorem History.exists_received {rs : List WorkerReport} (h : History workers as ⟨post, rs⟩)
    (hnone : received as = []) (ho : Channel.Offers ⟨post, []⟩ x ⟨post, []⟩)
    {taken rest : List Receipt} (hre : rs.map .report ++ [x] = taken ++ rest)
    (ht : Taken (workers.map (·.1)) taken) : ∃ as' queue, History workers as' ⟨post, queue⟩ ∧
      received as' = taken ∧
      (rest = queue.map .report ++ [x] ∨ rest = [] ∧ queue = []) := by
  induction ht generalizing rest with
  | nil => exact ⟨as, rs, h, hnone, .inl hre.symm⟩
  | @concat taken y ht ha ih =>
    rw [List.append_assoc] at hre
    obtain ⟨as₁, queue, h₁, rfl, hleft | ⟨hnil, -⟩⟩ := ih hre
    · cases queue with
      | nil =>
        obtain ⟨rfl, rfl⟩ := List.cons.inj hleft
        exact ⟨_, [], h₁.receive ha ho, by simp, .inr ⟨rfl, rfl⟩⟩
      | cons r queue =>
        obtain ⟨rfl, rfl⟩ := List.cons.inj hleft
        exact ⟨_, queue, h₁.receive ha (.report r), by simp, .inl rfl⟩
    · contradiction

/-- One worker reports and is heard, and if that is not all, time runs out. -/
theorem exists_history_first {t : Fin workers.length} {r : WorkerReport}
    (hr : report? (workers.get t) = some r) : ∃ as c v, History workers as c ∧
      outcome? workers as = some v ∧ sent as = [(t, r)] ∧ heard as = [r] ∧
      (missing workers as ≠ [] → v = .ok (.stalled (missing workers as))) := by
  have hne : unheard (workers.map (·.1)) [] ≠ [] :=
    List.ne_nil_of_mem (mem_unheard.mpr ⟨List.mem_map_of_mem (workers.get_mem t), nofun⟩)
  have hsent := History.start.report t rfl hr
  have hheard := hsent.receive hne (.report r)
  by_cases hm : unheard (workers.map (·.1)) [r] = []
  · exact ⟨_, _, _, hheard, (answer_report hne r).trans (if_pos hm), rfl, rfl, fun h => absurd hm h⟩
  · have ht : Function.update (fun _ => Post.working) t .reported t ≠ .gone := by simp
    have hover := hheard.receive ((awaited_reports _ [r]).trans_ne hm) (.timedOut t ht)
    exact ⟨_, _, _, hover, answer_timedOut hm, rfl, rfl, fun _ => rfl⟩

/-- The computed receipts are all reports, and then the silence of those who hang or the end. -/
theorem receipts_eq (workers : List (String × Behaviour)) : ∃ x,
    receipts workers = (workers.filterMap report?).map .report ++ [x] ∧
      (x = .timedOut ∧ (∃ w ∈ workers, w.2 = .hangs) ∨
        x = .closed ∧ ∀ w ∈ workers, w.2 ≠ .hangs) := by
  have hreports : (workers.filterMap report?).map Receipt.report =
      workers.filterMap fun w => w.2.result?.map fun r => .report ⟨w.1, r⟩ := by
    rw [List.map_filterMap]
    exact List.filterMap_congr fun w _ => Option.map_map ..
  rw [hreports]
  refine ⟨_, rfl, ?_⟩
  split
  · rename_i hany
    obtain ⟨w, hw, hh⟩ := List.any_eq_true.mp hany
    refine .inl ⟨rfl, w, hw, ?_⟩
    split at hh
    · assumption
    · contradiction
  · rename_i hany
    refine .inr ⟨rfl, fun w hw hh => hany (List.any_eq_true.mpr ⟨w, hw, ?_⟩)⟩
    rw [hh]

/-- What a crew comes to whose workers run one after the other is what it comes to in some
history. -/
theorem exists_history_receipts (workers : List (String × Behaviour)) :
    ∃ as c, History workers as c ∧
      outcome? workers as = some (wait (workers.map (·.1)) (receipts workers)).1 := by
  obtain ⟨as, post, h, hnone, -, hends⟩ := History.start.exists_ends
    (List.nodup_finRange workers.length) fun _ _ => rfl
  rw [List.nil_append, filterMap_get] at h
  obtain ⟨x, hre, hx⟩ := receipts_eq workers
  have ho : Channel.Offers ⟨post, []⟩ x ⟨post, []⟩ := by
    rcases hx with ⟨rfl, w, hw, hh⟩ | ⟨rfl, hall⟩
    · obtain ⟨t, rfl⟩ := List.mem_iff_get.mp hw
      exact .timedOut t fun hg => (hends t (List.mem_finRange t)).mp hg hh
    · exact .closed fun t => (hends t (List.mem_finRange t)).mpr (hall _ (workers.get_mem t))
  have hover : awaited (expected (workers.map (·.1))) (receipts workers) = [] := by
    rw [hre, awaited_expected]
    rcases hx with ⟨rfl, -⟩ | ⟨rfl, -⟩ <;> rfl
  obtain ⟨taken, rest, hsplit, ht, ha⟩ := exists_taken hover
  obtain ⟨as', queue, h', rfl, -⟩ := h.exists_received hnone ho (hre.symm.trans hsplit) ht
  exact ⟨as', _, h', ha⟩

end LockTrace.Crew
