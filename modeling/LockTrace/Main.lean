import LockTrace.CommandLine.Program

namespace LockTrace

/-- The environment variables that the program looks at. -/
def environment : IO CommandLine.Environment := do
  let deadline ← IO.getEnv Settings.deadlineName
  let target ← IO.getEnv Target.settingName
  return fun name =>
    if name = Settings.deadlineName then deadline
    else if name = Target.settingName then target
    else none

end LockTrace

/-- Runs a workload: records go where the environment says, and notices to the error output. -/
def main (args : List String) : IO UInt32 := do
  let ending := LockTrace.CommandLine.program args (← LockTrace.environment) 1
  let stdout ← IO.getStdout
  let stderr ← IO.getStderr
  stdout.write ⟨ending.stdout.toArray⟩
  stdout.flush
  stderr.write ⟨ending.stderr.toArray⟩
  for notice in ending.notices do
    stderr.putStrLn notice.text
  stderr.flush
  return ending.exit.toUInt32
