import LockTrace.Proofs.Text.Order
import LockTrace.Proofs.Workload.Channel

namespace LockTrace.Crew

variable {workers : List (String × Behaviour)} {as : List (Act workers.length)}
  {c : Channel workers.length} {s t : Fin workers.length} {pending : List String}

/-- What waiting for these workers has come to, if it has come to its end. -/
def outcome? (workers : List (String × Behaviour)) (as : List (Act workers.length)) :
    Option (Except String Outcome) := answer? (workers.map (·.1)) (received as)

/-- The names of which no report has been received. -/
def missing (workers : List (String × Behaviour)) (as : List (Act workers.length)) : List String :=
  unheard (workers.map (·.1)) (heard as)

theorem mem_missing {n : String} : n ∈ missing workers as ↔
    n ∈ workers.map (·.1) ∧ n ∉ (heard as).map (·.name) := mem_unheard

theorem missing_eq_nil_iff : missing workers as = [] ↔
    ∀ w ∈ workers, w.1 ∈ (heard as).map (·.name) := by
  rw [missing, unheard_eq_nil_iff, List.forall_mem_map]

/-- Waiting is over once nobody is missing, or when what is received is no report. -/
theorem History.ending {v : Except String Outcome} (h : History workers as c)
    (ho : outcome? workers as = some v) :
    (missing workers as = [] ∧ v = conclude ((heard as).filterMap (·.complaint?))) ∨
      (missing workers as ≠ [] ∧
        ∃ x : Receipt, x.report? = none ∧ received as = (heard as).map .report ++ [x]) := by
  obtain ⟨rs, ⟨hre, hcase⟩ | ⟨hne, hre, -⟩ | ⟨hne, hre, -⟩⟩ := h.taken.answer
  · rw [outcome?, hcase] at ho
    rw [missing, heard_of_received hre]
    split at ho
    · rename_i hnil
      exact .inl ⟨hnil, (Option.some.inj ho).symm⟩
    · contradiction
  · rw [missing, heard_of_last rfl hre]
    exact .inr ⟨hne, .timedOut, rfl, hre⟩
  · rw [missing, heard_of_last rfl hre]
    exact .inr ⟨hne, .closed, rfl, hre⟩

/-- A stall was found when a receive timed out, and then nothing was in the queue. -/
theorem History.exists_timeOut (h : History workers as c)
    (hs : outcome? workers as = some (.ok (.stalled pending))) :
    ∃ before after c₀, as = before ++ .receive .timedOut :: after ∧ History workers before c₀ ∧
      c₀.queue = [] ∧ pending = missing workers before := by
  induction h with
  | start =>
    rw [outcome?, received, List.filterMap_nil, answer_nil] at hs
    exact absurd hs ending_ne_stalled
  | @report as c r t _ _ _ ih =>
    rw [outcome?, received_report] at hs
    obtain ⟨before, after, c₀, rfl, hbefore⟩ := ih hs
    exact ⟨before, after ++ [.report t r], c₀, by simp, hbefore⟩
  | leave t _ _ ih | vanish t _ _ _ ih =>
    rw [outcome?, received_leave] at hs
    obtain ⟨before, after, c₀, rfl, hbefore⟩ := ih hs
    exact ⟨before, after ++ [.leave t], c₀, by simp, hbefore⟩
  | @receive as c c' x h ha ho ih =>
    obtain ⟨rs, hrs⟩ := exists_reports_of_awaited ha
    rw [hrs, awaited_reports] at ha
    rw [outcome?, received_receive, hrs] at hs
    cases ho with
    | report r =>
      rw [answer_report ha] at hs
      exact absurd hs ending_ne_stalled
    | timedOut t ht =>
      rw [answer_timedOut ha] at hs
      cases hs
      exact ⟨as, [], _, rfl, h, rfl, by rw [missing, heard_of_received hrs]⟩
    | closed hg =>
      rw [answer_closed ha] at hs
      cases hs

/-- As long as somebody is awaited, an attempt to receive comes to something. -/
theorem History.exists_receive (h : History workers as c) (ho : outcome? workers as = none) :
    ∃ x c', History workers (as ++ [.receive x]) c' := by
  have ha : awaited (expected (workers.map (·.1))) (received as) ≠ [] := by
    intro ha
    rw [outcome?, answer?, if_pos ha] at ho
    contradiction
  obtain ⟨post, queue⟩ := c
  cases queue with
  | cons r queue => exact ⟨_, _, h.receive ha (.report r)⟩
  | nil =>
    by_cases hg : ∀ t, post t = .gone
    · exact ⟨_, _, h.receive ha (.closed hg)⟩
    · obtain ⟨t, ht⟩ := not_forall.mp hg
      exact ⟨_, _, h.receive ha (.timedOut t ht)⟩

section Speaking

variable (hv : ∀ w ∈ workers, w.2 ≠ .vanishes)
include hv

/-- Whoever is not at work any more has reported. -/
theorem Sound.mem_sent_of_away (h : Sound workers as c) (ht : c.post t ≠ .working) :
    t ∈ (sent as).map (·.1) :=
  (h.away t ht).resolve_right (hv _ (workers.get_mem t))

/-- The channel is never found closed: as long as somebody is awaited, a sender is there, or a
report in the queue. -/
theorem History.closed_notMem (h : History workers as c) : .closed ∉ received as := by
  induction h with
  | start => exact List.not_mem_nil
  | report t _ _ _ ih =>
    rw [received_report]
    exact ih
  | leave t _ _ ih | vanish t _ _ _ ih =>
    rw [received_leave]
    exact ih
  | @receive as c c' x h ha ho ih =>
    rw [received_receive]
    intro hmem
    rcases List.mem_append.mp hmem with hmem | hmem
    · exact ih hmem
    · cases List.mem_singleton.mp hmem
      obtain ⟨rs, hrs⟩ := exists_reports_of_awaited ha
      rw [hrs, awaited_reports, ← heard_of_received hrs] at ha
      cases ho with
      | closed hg =>
        refine ha (missing_eq_nil_iff.mpr fun w hw => ?_)
        obtain ⟨t, rfl⟩ := List.mem_iff_get.mp hw
        have hsent := h.sound.mem_sent_of_away hv (t := t) (by simp [hg t])
        have hname := h.sound.mem_names hsent
        rwa [h.sound.queue, List.append_nil] at hname

/-- What has been received are reports, and then perhaps the deadline. -/
theorem History.outcome_cases (h : History workers as c) :
    (received as = (heard as).map .report ∧ outcome? workers as =
      if missing workers as = [] then some (conclude ((heard as).filterMap (·.complaint?)))
      else none) ∨
    (missing workers as ≠ [] ∧ received as = (heard as).map .report ++ [.timedOut] ∧
      outcome? workers as = some (.ok (.stalled (missing workers as)))) := by
  obtain ⟨rs, ⟨hrs, ho⟩ | ⟨hne, hrs, ho⟩ | ⟨-, hclosed, -⟩⟩ := h.taken.answer
  · rw [missing, heard_of_received hrs]
    exact .inl ⟨hrs, ho⟩
  · rw [missing, heard_of_last rfl hrs]
    exact .inr ⟨hne, hrs, ho⟩
  · exact absurd (by simp [hclosed]) (h.closed_notMem hv)

end Speaking

section Distinct

variable (hn : (workers.map (·.1)).Nodup)
include hn

theorem eq_of_name (h : (workers.get s).1 = (workers.get t).1) : s = t := by
  have hget := List.inj_on_of_nodup_map hn (workers.get_mem s) (workers.get_mem t) h
  exact List.nodup_iff_injective_get.mp hn.of_map hget

theorem Sound.nodup_names (h : Sound workers as c) : ((arrivals as).map (·.name)).Nodup := by
  have hnames : (arrivals as).map (·.name) =
      ((sent as).map (·.1)).map fun t => (workers.get t).1 := by
    rw [arrivals, List.map_map, List.map_map]
    exact List.map_congr_left fun e he => name_of_report (h.report e he)
  rw [hnames]
  exact h.once.map_on fun s _ t _ hst => eq_of_name hn hst

theorem Sound.nodup_heard (h : Sound workers as c) : ((heard as).map (·.name)).Nodup := by
  have hnames := h.nodup_names hn
  rw [h.queue, List.map_append] at hnames
  exact hnames.of_append_left

/-- Once nobody is missing, nothing is left in the queue. -/
theorem Sound.arrivals_eq_heard (h : Sound workers as c) (hm : missing workers as = []) :
    arrivals as = heard as := by
  have hnames := h.nodup_names hn
  rw [h.queue, List.map_append, List.nodup_append] at hnames
  have hqueue : c.queue = [] := by
    refine List.eq_nil_iff_forall_not_mem.mpr fun r hr => ?_
    have hmem : r ∈ arrivals as := by
      rw [h.queue]
      exact List.mem_append_right _ hr
    obtain ⟨w, hw, hname⟩ := List.mem_map.mp (h.names_subset (List.mem_map_of_mem hmem))
    have hheard := missing_eq_nil_iff.mp hm w hw
    exact hnames.2.2 _ hheard _ (List.mem_map_of_mem hr) hname
  rw [h.queue, hqueue, List.append_nil]

/-- Once nobody is missing, the reports that arrived are those of all workers. -/
theorem History.arrivals_perm (h : History workers as c) (hm : missing workers as = []) :
    (arrivals as).Perm (workers.filterMap report?) := by
  have hsent : ((sent as).map (·.1)).Perm (List.finRange workers.length) := by
    refine (List.perm_ext_iff_of_nodup h.sound.once (List.nodup_finRange _)).mpr fun t => ?_
    refine ⟨fun _ => List.mem_finRange t, fun _ => ?_⟩
    obtain ⟨r, hr, hname⟩ := List.mem_map.mp (missing_eq_nil_iff.mp hm _ (workers.get_mem t))
    rw [← h.sound.arrivals_eq_heard hn hm] at hr
    obtain ⟨s, hs, hreport⟩ := h.sound.exists_worker hr
    rwa [eq_of_name hn ((name_of_report hreport).symm.trans hname)] at hs
  have hperm := hsent.filterMap fun t => report? (workers.get t)
  rw [← h.sound.arrivals_eq] at hperm
  rwa [filterMap_get] at hperm

variable (hv : ∀ w ∈ workers, w.2 ≠ .vanishes)
include hv

/-- There are no more receives than workers. -/
theorem History.length_received_le (h : History workers as c) :
    (received as).length ≤ workers.length := by
  have hnodup := h.sound.nodup_heard hn
  have hsubset := h.sound.heard_subset
  rcases h.outcome_cases hv with ⟨hre, -⟩ | ⟨hne, hre, -⟩
  · have hle := (List.subperm_of_subset hnodup hsubset).length_le
    rw [List.length_map, List.length_map] at hle
    rwa [hre, List.length_map]
  · obtain ⟨n, hmem⟩ := List.exists_mem_of_ne_nil _ hne
    obtain ⟨hname, hmissing⟩ := mem_missing.mp hmem
    have hle := (List.subperm_of_subset (List.nodup_cons.mpr ⟨hmissing, hnodup⟩)
      (List.cons_subset.mpr ⟨hname, hsubset⟩)).length_le
    rw [List.length_cons, List.length_map, List.length_map] at hle
    rwa [hre, List.length_append, List.length_map]

theorem History.outcome_eq_completed_iff (h : History workers as c) :
    outcome? workers as = some (.ok .completed) ↔
      .timedOut ∉ received as ∧ ∀ w ∈ workers, .report ⟨w.1, .ok ()⟩ ∈ received as := by
  constructor
  · intro ho
    rcases h.outcome_cases hv with ⟨hre, hcase⟩ | ⟨-, -, hcase⟩
    · rw [hcase] at ho
      split at ho
      · rename_i hm
        have hnone := conclude_eq_completed_iff.mp (Option.some.inj ho)
        refine ⟨by rw [hre]; simp, fun w hw => ?_⟩
        obtain ⟨r, hr, hname⟩ := List.mem_map.mp (missing_eq_nil_iff.mp hm w hw)
        have hok := complaint_eq_none_iff.mp (List.filterMap_eq_nil_iff.mp hnone r hr)
        rw [hname] at hok
        rw [← hok]
        exact mem_heard.mp hr
      · contradiction
    · rw [hcase] at ho
      cases ho
  · rintro ⟨hin, hall⟩
    rcases h.outcome_cases hv with ⟨-, hcase⟩ | ⟨-, hre, -⟩
    · have hm : missing workers as = [] := missing_eq_nil_iff.mpr fun w hw =>
        List.mem_map_of_mem (mem_heard.mpr (hall w hw))
      have hnone : (heard as).filterMap (·.complaint?) = [] := by
        refine List.filterMap_eq_nil_iff.mpr fun r hr => complaint_eq_none_iff.mpr ?_
        obtain ⟨w, hw, hname⟩ :=
          List.mem_map.mp (h.sound.heard_subset (List.mem_map_of_mem hr))
        have hok := mem_heard.mpr (hall w hw)
        rw [hname] at hok
        exact List.inj_on_of_nodup_map (h.sound.nodup_heard hn) hr hok rfl
      rw [hcase, if_pos hm, conclude_eq_completed_iff.mpr hnone]
    · exact absurd (by simp [hre]) hin

/-- If all have been heard and some have failed, the failures are told as they arrived. -/
theorem History.outcome_of_failure (h : History workers as c) (hin : .timedOut ∉ received as)
    (hall : ∀ w ∈ workers, ∃ r, .report ⟨w.1, r⟩ ∈ received as)
    (hfail : ∃ w ∈ workers, ∃ e, .report ⟨w.1, .error e⟩ ∈ received as) :
    outcome? workers as =
        some (.error ("; ".intercalate ((arrivals as).filterMap (·.complaint?)))) ∧
      (arrivals as).Perm (workers.filterMap report?) := by
  have hm : missing workers as = [] := by
    refine missing_eq_nil_iff.mpr fun w hw => ?_
    obtain ⟨r, hr⟩ := hall w hw
    exact List.mem_map_of_mem (mem_heard.mpr hr)
  refine ⟨?_, h.arrivals_perm hn hm⟩
  rcases h.outcome_cases hv with ⟨-, hcase⟩ | ⟨-, hre, -⟩
  · obtain ⟨w, -, e, he⟩ := hfail
    have hne : (heard as).filterMap (·.complaint?) ≠ [] :=
      List.ne_nil_of_mem (List.mem_filterMap.mpr ⟨_, mem_heard.mpr he, rfl⟩)
    rw [hcase, if_pos hm, conclude_of_ne_nil hne, h.sound.arrivals_eq_heard hn hm]
  · exact absurd (by simp [hre]) hin

/-- Of workers with names of their own, none of which dies without a word, and whatever the order of
their reports and the moment of the deadline: they have completed just if all were heard in time and
none had failed, and the failures are told in order of arrival if all were heard and some had. Those
found pending are the ones of whom nothing had arrived when the time was up, in the order of their
bytes. The channel is never found closed, and no more is received than there are workers. -/
theorem each_worker_counts (h : History workers as c) :
    (outcome? workers as = some (.ok .completed) ↔
      .timedOut ∉ received as ∧ ∀ w ∈ workers, .report ⟨w.1, .ok ()⟩ ∈ received as) ∧
    (.timedOut ∉ received as → (∀ w ∈ workers, ∃ r, .report ⟨w.1, r⟩ ∈ received as) →
      (∃ w ∈ workers, ∃ e, .report ⟨w.1, .error e⟩ ∈ received as) →
      outcome? workers as =
          some (.error ("; ".intercalate ((arrivals as).filterMap (·.complaint?)))) ∧
        (arrivals as).Perm (workers.filterMap report?)) ∧
    (∀ pending, outcome? workers as = some (.ok (.stalled pending)) →
      ∃ before after, as = before ++ .receive .timedOut :: after ∧
        (∀ n, n ∈ pending ↔ n ∈ workers.map (·.1) ∧ n ∉ (arrivals before).map (·.name)) ∧
        (pending.map fun n => Text.Utf8.encode n.toList).Pairwise (· < ·)) ∧
    .closed ∉ received as ∧ (∀ t, c.post t = .gone → ∃ r, (t, r) ∈ sent as) ∧
    (received as).length ≤ workers.length ∧
    (outcome? workers as = none → ∃ x c', History workers (as ++ [.receive x]) c') := by
  refine ⟨h.outcome_eq_completed_iff hn hv, h.outcome_of_failure hn hv, fun pending hs => ?_,
    h.closed_notMem hv, fun t ht => ?_, h.length_received_le hn hv, h.exists_receive⟩
  · obtain ⟨before, after, c₀, he, hbefore, hq, rfl⟩ := h.exists_timeOut hs
    have harrivals : arrivals before = heard before := by
      rw [hbefore.sound.queue, hq, List.append_nil]
    refine ⟨before, after, he, fun n => ?_, ?_⟩
    · rw [harrivals]
      exact mem_missing
    · exact (pairwise_unheard _ _).map _ fun _ _ => Text.Utf8.encode_toList_lt
  · obtain ⟨e, he, rfl⟩ := List.mem_map.mp (h.sound.mem_sent_of_away hv (t := t) (by simp [ht]))
    exact ⟨e.2, he⟩

end Distinct

/-- One of three succeeds, and the others fail in their own ways. -/
def mixedCrew : List (String × Behaviour) :=
  [("reader", .panics (.text "bug")), ("writer", .ends (.ok ())),
    ("keeper", .ends (.error "no room"))]

def reader : Fin mixedCrew.length := ⟨0, by decide⟩

def writer : Fin mixedCrew.length := ⟨1, by decide⟩

def keeper : Fin mixedCrew.length := ⟨2, by decide⟩

/-- Their reports come in another order than they were set to work, and one is taken early. -/
def mixedActs : List (Act mixedCrew.length) :=
  [.report keeper ⟨"keeper", .error "no room"⟩,
    .receive (.report ⟨"keeper", .error "no room"⟩), .report writer ⟨"writer", .ok ()⟩,
    .report reader ⟨"reader", .error "panicked: bug"⟩, .leave reader,
    .receive (.report ⟨"writer", .ok ()⟩),
    .receive (.report ⟨"reader", .error "panicked: bug"⟩)]

theorem exists_history_mixedActs : ∃ c, History mixedCrew mixedActs c := by
  have hstart : History mixedCrew [] ⟨fun _ => .working, []⟩ := .start
  have hkeeper := hstart.report keeper rfl rfl
  have hfirst := hkeeper.receive (by decide) (.report _)
  have hwriter := hfirst.report writer rfl rfl
  have hreader := hwriter.report reader rfl rfl
  have hgone := hreader.leave reader rfl
  have hsecond := hgone.receive (by decide) (.report _)
  exact ⟨_, hsecond.receive (by decide) (.report _)⟩

theorem each_worker_counts_mixedCrew : (mixedCrew.map (·.1)).Nodup ∧
    (∀ w ∈ mixedCrew, w.2 ≠ .vanishes) ∧ (∃ c, History mixedCrew mixedActs c) ∧
    outcome? mixedCrew mixedActs =
      some (.error ("; ".intercalate ["keeper: no room", "reader: panicked: bug"])) := by
  have hn : (mixedCrew.map (·.1)).Nodup := by decide
  have hv : ∀ w ∈ mixedCrew, w.2 ≠ .vanishes := by simp [mixedCrew]
  obtain ⟨c, h⟩ := exists_history_mixedActs
  have hre : received mixedActs = [.report ⟨"keeper", .error "no room"⟩,
      .report ⟨"writer", .ok ()⟩, .report ⟨"reader", .error "panicked: bug"⟩] := rfl
  obtain ⟨-, hfailed, -⟩ := each_worker_counts hn hv h
  rw [hre] at hfailed
  exact ⟨hn, hv, ⟨c, h⟩, (hfailed (by simp) (by simp [mixedCrew]) (by simp [mixedCrew])).1⟩

end LockTrace.Crew
