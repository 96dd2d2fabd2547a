import LockTrace.Proofs.Threads.Acts
import LockTrace.Workload.Run

namespace LockTrace

variable {V R σ α : Type} [Recorder R]

namespace Schedule

variable {plan : Plan V R σ} {s s' : Schedule V R σ} {drift : R → R → Prop}
  {mark : Play V R σ → ThreadId → Play V R σ → Option α} {p₀ : Play V R σ}

/-- The first worker that can move makes a move of the play. -/
theorem act_of_firstMove {ts : List ThreadId} (h : s.firstMove plan ts = some s') :
    ∃ t ∈ ts, s.play.act plan.script t List.head? = some s'.play := by
  induction ts with
  | nil => contradiction
  | cons t ts ih =>
    have later (h : s.firstMove plan ts = some s') :
        ∃ t' ∈ t :: ts, s.play.act plan.script t' List.head? = some s'.play := by
      obtain ⟨t', ht', ha⟩ := ih h
      exact ⟨t', List.mem_cons_of_mem t ht', ha⟩
    rw [firstMove] at h
    split at h
    · exact later h
    · split at h
      · exact later h
      · rename_i ha
        cases h
        exact ⟨t, List.mem_cons_self .., ha⟩

/-- A schedule is one of the orders in which workers can move, and its clock makes the recorder
drift. -/
theorem run_chronicle (hd : ∀ now r, drift r (plan.stamp now r)) (endOfTime fuel : Nat)
    {xs : List α} (h : Play.Chronicle plan.script plan.workers drift mark p₀ xs s.play) :
    ∃ xs', Play.Chronicle plan.script plan.workers drift mark p₀ xs'
      (run plan endOfTime fuel s).play := by
  induction fuel generalizing s xs with
  | zero => exact ⟨xs, h⟩
  | succ fuel ih =>
    rw [run]
    split
    · exact ⟨xs, h⟩
    · split
      · rename_i hm
        obtain ⟨t, ht, ha⟩ := act_of_firstMove hm
        exact ih (h.act t ht _ ha)
      · split
        · exact ⟨xs, h⟩
        · exact ih (h.drift _ (hd _ _))

end Schedule

namespace Play

/-- The report that a crew gets of a worker that has ended. -/
def report (name : ThreadId → String) (e : ThreadId × Except String Unit) : Receipt :=
  .report ⟨name e.1, e.2⟩

/-- What a crew can hear of workers: reports of those that have ended, in order, until the deadline
passes, or all of them and then the news that nobody is left. -/
inductive Heard (name : ThreadId → String) (workers : List ThreadId) (p : Play V R σ) :
    List Receipt → Prop
  | timedOut (n : Nat) : Heard name workers p ((p.ended.take n).map (report name) ++ [.timedOut])
  | closed (h : ∀ t ∈ workers, p.hasEnded t = true) :
      Heard name workers p (p.ended.map (report name) ++ [.closed])

end Play

/-- A workload is conducted in one of the orders in which its workers can move, and its outcome is
what the crew makes of what it heard of them. -/
theorem Workload.exists_conduct {script : Script V σ} {workers : List ThreadId}
    (name : ThreadId → String) (place : ThreadId → σ) (rest : σ) (value : V) (settings : Settings)
    (pace : Nat) (desk : Desk) (opening : Notice)
    (mark : Play V Desk σ → ThreadId → Play V Desk σ → Option α) :
    ∃ xs p rs, Play.Chronicle script workers Desk.Ticks mark
        (Play.opening place rest workers value desk) xs p ∧ p.Heard name workers rs ∧
      conduct script workers name place rest value settings pace desk opening =
        (⟨(Crew.wait (workers.map name) rs).1,
          opening :: p.world.notices ++ (Crew.wait (workers.map name) rs).2,
          p.world.recorder⟩, p.world) := by
  let plan : Schedule.Plan V Desk σ := ⟨script, workers, pace, stamp⟩
  have hstart : Play.Chronicle plan.script plan.workers Desk.Ticks mark
      (Play.opening place rest workers value desk) []
      (Play.opening place rest workers value desk) := .start
  have hstamp : ∀ now d, Desk.Ticks d (plan.stamp now d) := fun now d => ⟨_, rfl⟩
  obtain ⟨xs, h⟩ := Schedule.run_chronicle
    (s := { play := Play.opening place rest workers value desk }) hstamp settings.deadline
    (budget workers.length) hstart
  refine ⟨xs, _, _, h, .timedOut (Schedule.run plan settings.deadline (budget workers.length)
    { play := Play.opening place rest workers value desk }).play.ended.length, ?_⟩
  rw [List.take_length]
  rfl

end LockTrace
