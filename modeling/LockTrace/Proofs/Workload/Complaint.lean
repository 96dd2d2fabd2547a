import LockTrace.Proofs.Workload.Succession

namespace LockTrace

/-- The same report, had the worker not failed. -/
def WorkerReport.pardoned (r : WorkerReport) : WorkerReport := ⟨r.name, .ok ()⟩

def Receipt.pardoned : Receipt → Receipt
  | .report r => .report r.pardoned
  | .timedOut => .timedOut
  | .closed => .closed

namespace Crew

/-- The value says of a worker of this name that it failed with this error. -/
def Blames (v : Except String Outcome) (name e : String) : Prop :=
  ∃ front back, v = .error (front ++ s!"{name}: {e}" ++ back)

section Value

variable {name e : String} {rs rs' : List WorkerReport} {names : List String} {x : Receipt}

theorem exists_intercalate {s : String} {texts : List String} (h : s ∈ texts) (sep : String) :
    ∃ front back, sep.intercalate texts = front ++ s ++ back := by
  induction texts with
  | nil => contradiction
  | cons t texts ih =>
    by_cases hnil : texts = []
    · subst hnil
      exact ⟨"", "", by simp [List.mem_singleton.mp h]⟩
    · rw [String.intercalate_cons_of_ne_nil hnil]
      rcases List.mem_cons.mp h with rfl | h
      · exact ⟨"", sep ++ sep.intercalate texts, by simp [String.append_assoc]⟩
      · obtain ⟨front, back, he⟩ := ih h
        exact ⟨t ++ sep ++ front, back, by simp only [he, String.append_assoc]⟩

/-- The conclusion tells of every failure. -/
theorem blames_conclude (h : ⟨name, .error e⟩ ∈ rs) :
    Blames (conclude (rs.filterMap (·.complaint?))) name e := by
  have hmem : s!"{name}: {e}" ∈ rs.filterMap (·.complaint?) := List.mem_filterMap.mpr ⟨_, h, rfl⟩
  obtain ⟨front, back, he⟩ := exists_intercalate hmem "; "
  exact ⟨front, back, by rw [conclude_of_ne_nil (List.ne_nil_of_mem hmem), he]⟩

theorem not_blames_ok {o : Outcome} : ¬ Blames (.ok o) name e := by
  rintro ⟨front, back, he⟩
  contradiction

theorem unheard_pardoned (names : List String) (rs : List WorkerReport) :
    unheard names (rs.map (·.pardoned)) = unheard names rs := by
  rw [unheard, unheard, List.map_map]
  rfl

theorem pardoned_reports (rs : List WorkerReport) :
    (rs.map Receipt.report).map Receipt.pardoned = (rs.map (·.pardoned)).map .report := by
  rw [List.map_map, List.map_map]
  rfl

/-- Waiting that ends too early comes to what is missing, whatever was heard. -/
theorem answer_early (hx : x.report? = none) (h : unheard names rs ≠ [])
    (he : unheard names rs' = unheard names rs) :
    answer? names (rs'.map .report ++ [x]) = answer? names (rs.map .report ++ [x]) := by
  have h' : unheard names rs' ≠ [] := he.trans_ne h
  cases x with
  | report r => contradiction
  | timedOut => rw [answer_timedOut h', answer_timedOut h, he]
  | closed => rw [answer_closed h', answer_closed h, he]

theorem answer_pardoned (hx : x.report? = none) (h : unheard names rs ≠ []) :
    answer? names ((rs.map Receipt.report ++ [x]).map Receipt.pardoned) =
      answer? names (rs.map .report ++ [x]) := by
  have hlast : x.pardoned = x := by
    cases x with
    | report r => contradiction
    | timedOut => rfl
    | closed => rfl
  rw [List.map_append, pardoned_reports, List.map_singleton, hlast]
  exact answer_early hx h (unheard_pardoned names rs)

end Value

variable {workers : List (String × Behaviour)} {as : List (Act workers.length)}
  {c : Channel workers.length} {v : Except String Outcome}

/-- What waiting would have come to, had none of those failed that were heard. -/
def pardoned? (workers : List (String × Behaviour)) (as : List (Act workers.length)) :
    Option (Except String Outcome) :=
  answer? (workers.map (·.1)) ((received as).map Receipt.pardoned)

/-- If somebody is missing in the end, failures have made no difference. -/
theorem History.pardoned_of_missing (h : History workers as c)
    (ho : outcome? workers as = some v) (hm : missing workers as ≠ []) :
    pardoned? workers as = some v := by
  rcases h.ending ho with ⟨hnil, -⟩ | ⟨hne, x, hx, hre⟩
  · contradiction
  · rw [outcome?, hre] at ho
    rw [pardoned?, hre, answer_pardoned hx hne, ho]

/-- If nobody is missing in the end, every failure is told that was heard. -/
theorem History.blames_of_missing (h : History workers as c) (ho : outcome? workers as = some v)
    (hm : missing workers as = []) {name e : String}
    (hr : .report ⟨name, .error e⟩ ∈ received as) : Blames v name e := by
  rcases h.ending ho with ⟨-, rfl⟩ | ⟨hne, -⟩
  · exact blames_conclude (mem_heard.mpr hr)
  · contradiction

/-- Waiting for these workers always tells of the failures that were heard. -/
def Forthright (workers : List (String × Behaviour)) : Prop :=
  ∀ ⦃as c v name e⦄, History workers as c → outcome? workers as = some v →
    .report ⟨name, .error e⟩ ∈ received as → Blames v name e

theorem forthright_of_name {n : String} (hn : ∀ w ∈ workers, w.1 = n) : Forthright workers := by
  intro as c v name e h ho hr
  refine h.blames_of_missing ho (missing_eq_nil_iff.mpr fun w hw => ?_) hr
  have hmem := List.mem_map_of_mem (f := (·.name)) (mem_heard.mpr hr)
  obtain ⟨w', hw', hname⟩ := List.mem_map.mp (h.sound.heard_subset hmem)
  rwa [hn w hw, ← hn w' hw', hname]

theorem forthright_of_forall_ne (hn : ∀ w ∈ workers, ∀ e, w.2.result? ≠ some (.error e)) :
    Forthright workers := by
  intro as c v name e h ho hr
  obtain ⟨t, -, -, ht⟩ := h.sound.exists_speaker (mem_heard.mpr hr)
  obtain ⟨result, hresult, he⟩ := Option.map_eq_some_iff.mp ht
  cases he
  exact absurd hresult (hn _ (workers.get_mem t) e)

/-- A failure is swallowed when it is the first to be heard, and time runs out then. -/
theorem not_forthright {w u : String × Behaviour} (hw : w ∈ workers) (hu : u ∈ workers)
    (hne : u.1 ≠ w.1) {e : String} (hfail : w.2.result? = some (.error e)) :
    ¬ Forthright workers := by
  intro hforth
  obtain ⟨t, rfl⟩ := List.mem_iff_get.mp hw
  have hr : report? (workers.get t) = some ⟨(workers.get t).1, .error e⟩ := by
    rw [report?, hfail, Option.map_some]
  -- The failure is heard, and somebody else is still missing when time runs out.
  obtain ⟨as, c, v, h, ho, -, hheard, hstalled⟩ := exists_history_first hr
  have hmissing : u.1 ∈ missing workers as := by
    refine mem_missing.mpr ⟨List.mem_map_of_mem hu, ?_⟩
    rw [hheard]
    simpa using hne
  have htold := hforth h ho (mem_heard.mp (hheard ▸ List.mem_singleton_self _))
  rw [hstalled (List.ne_nil_of_mem hmissing)] at htold
  exact not_blames_ok htold

/-- Once waiting is over, every failure that was heard is told, provided that nobody is missing. If
somebody is, waiting comes to what it would have come to without any failure. So the failures of a
crew are told in all its histories just if nobody in it can fail, or all bear one name. -/
theorem forthright_iff (workers : List (String × Behaviour)) :
    (∀ as c v, History workers as c → outcome? workers as = some v →
      (missing workers as = [] →
        ∀ name e, .report ⟨name, .error e⟩ ∈ received as → Blames v name e) ∧
      (missing workers as ≠ [] → pardoned? workers as = some v)) ∧
    (Forthright workers ↔ (∀ w ∈ workers, ∀ e, w.2.result? ≠ some (.error e)) ∨
      ∃ n, ∀ w ∈ workers, w.1 = n) := by
  refine ⟨fun as c v h ho => ⟨fun hm name e hr => h.blames_of_missing ho hm hr,
    h.pardoned_of_missing ho⟩, fun hforth => ?_, ?_⟩
  · by_contra hnor
    obtain ⟨hfail, hnames⟩ := not_or.mp hnor
    simp only [not_forall, not_exists, not_not] at hfail hnames
    obtain ⟨w, hw, e, he⟩ := hfail
    obtain ⟨u, hu, hne⟩ := hnames w.1
    exact not_forthright hw hu hne he hforth
  · rintro (hnone | ⟨n, hn⟩)
    · exact forthright_of_forall_ne hnone
    · exact forthright_of_name hn

/-- One of two fails, and the other waits for what it should have got from the first. -/
def strandedCrew : List (String × Behaviour) :=
  [("feeder", .ends (.error "queue empty")), ("eater", .hangs)]

def feeder : Fin strandedCrew.length := ⟨0, by decide⟩

/-- The failure is heard, and then time runs out. -/
def strandedActs : List (Act strandedCrew.length) :=
  [.report feeder ⟨"feeder", .error "queue empty"⟩,
    .receive (.report ⟨"feeder", .error "queue empty"⟩), .receive .timedOut]

/-- A failure that was heard is not told when the crew is said to have stalled. -/
theorem not_forthright_strandedCrew : ¬ Forthright strandedCrew ∧
    (∃ c, History strandedCrew strandedActs c) ∧
    .report ⟨"feeder", .error "queue empty"⟩ ∈ received strandedActs ∧
    outcome? strandedCrew strandedActs = some (.ok (.stalled ["eater"])) := by
  have hfailed := History.start.report feeder rfl rfl
  have hheard := hfailed.receive (by decide) (.report _)
  have hover := hheard.receive (by decide) (.timedOut feeder (by simp))
  have hr : .report ⟨"feeder", .error "queue empty"⟩ ∈ received strandedActs :=
    List.mem_cons_self ..
  have ho : outcome? strandedCrew strandedActs = some (.ok (.stalled ["eater"])) := rfl
  exact ⟨fun hforth => not_blames_ok (hforth hover ho hr), ⟨_, hover⟩, hr, ho⟩

end Crew

end LockTrace
