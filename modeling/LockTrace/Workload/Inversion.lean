import LockTrace.Threads.Script

namespace LockTrace.Inversion

/-- The two workers and the locks that each of them takes, first and second. -/
structure Party where
  name : String
  first : MutexId × String
  second : MutexId × String

def alpha : Party := ⟨"deadlock.worker.alpha", (0, "A"), (1, "B")⟩

def beta : Party := ⟨"deadlock.worker.beta", (1, "B"), (0, "A")⟩

def partyOf (t : ThreadId) : Party := if t = 1 then alpha else beta

/-- `guards` is the number of guards that are left to drop. -/
inductive Place
  | locking
  | telling
  | arriving
  | meeting
  | delaying
  | announcing
  | crossing
  | marvelling
  | leaving (guards : Nat) (result : Except String Unit)

def say (message : String) : Notice := ⟨.info, message, []⟩

/-- Both workers take their first lock, wait until the other has done so too, and then ask for
the lock that the other holds. -/
def script : Script Unit Place := fun t =>
  let p := partyOf t
  fun
  | .locking => .call (.lock .waits 0 p.first.1 p.first.2 0) fun
    | .failed e => .leaving 0 (.error e.message)
    | _ => .telling
  | .telling => .note (say s!"{p.name} locked {p.first.2}; waiting for peer") .arriving
  | .arriving => .arrive .meeting
  | .meeting => .meet 2 .delaying
  | .delaying => .pause 100 .announcing
  | .announcing =>
    .note (say (s!"{p.name} attempting {p.second.2}; " ++
      "this should deadlock due to lock-order inversion")) .crossing
  | .crossing => .call (.lock .waits 0 p.second.1 p.second.2 1) fun
    | .failed e => .leaving 1 (.error e.message)
    | _ => .marvelling
  | .marvelling =>
    .note ⟨.warn, s!"{p.name} unexpectedly acquired {p.second.2}; deadlock did not occur", []⟩
      (.leaving 2 (.ok ()))
  | .leaving 0 result => .stop result
  | .leaving (n + 1) result => .call (.leave .dropped n) fun _ => .leaving n result

def opening (deadline : Nat) : Notice :=
  ⟨.info, "two workers should deadlock on A/B; the trace ends at their second attempts",
    [("deadline_ms", toString deadline)]⟩

end LockTrace.Inversion
