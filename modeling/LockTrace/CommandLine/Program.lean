import LockTrace.CommandLine.Settings

namespace LockTrace.CommandLine

/-- Why the program ends before its time. -/
inductive Failure
  | usage (u : Usage)
  | settings (e : SettingsError)
  | workers (message : String)
  deriving DecidableEq, Repr

def Failure.message : Failure → String
  | .usage u => u.message
  | .settings e => e.message
  | .workers m => m

/-- What a process leaves behind: its exit code, what was said, and what it wrote. -/
structure Ending where
  exit : UInt8
  notices : List Notice
  stdout : List UInt8 := []
  stderr : List UInt8 := []

/-- Workers that are blocked when time is up. -/
def stalledNotice (pending : List String) : Notice :=
  ⟨.warn, "workers still blocked at the deadline; the trace stops where they stalled",
    [("pending", ", ".intercalate pending)]⟩

def failureNotice (f : Failure) : Notice := ⟨.error, f.message, []⟩

/-- The exit code and the last notice of a run. -/
def conclude : Except Failure Outcome → UInt8 × List Notice
  | .ok .completed => (0, [])
  | .ok (.stalled pending) => (2, [stalledNotice pending])
  | .error f => (1, [failureNotice f])

/-- The values of environment variables. -/
abbrev Environment := String → Option String

/-- The command and the settings that a process starts with. -/
def start (args : List String) (env : Environment) : Except Failure (Command × Settings) := do
  let choice ← (choose args).mapError .usage
  let settings ← (Settings.ofChoice choice (env Settings.deadlineName)).mapError .settings
  return (choice.command, settings)

/-- The desk of a process, whose first emitter writes where the environment says. -/
def openDesk (target : Target) : Desk := { sinks := ⟨.discard, [(0, Sink.ofTarget target)]⟩ }

/-- Runs the whole program. Pauses are divided by `pace`. -/
def program (args : List String) (env : Environment) (pace : Nat) : Ending :=
  match start args env with
  | .error f =>
    let (exit, notices) := conclude (.error f)
    { exit, notices }
  | .ok (command, settings) =>
    let (target, said) := Target.ofSetting (env Target.settingName)
    let run := Workload.run command settings pace (openDesk target)
    let (exit, last) := conclude (run.outcome.mapError .workers)
    { exit, notices := said ++ run.notices ++ last,
      stdout := run.desk.bytes .stdout, stderr := run.desk.bytes .stderr }

end LockTrace.CommandLine
