import LockTrace.CommandLine.Choice
import LockTrace.Text.Blank
import LockTrace.Text.Quoted
import LockTrace.Workload.Run

namespace LockTrace

/-- Why no settings can be made of a choice. -/
inductive SettingsError
  | deadline (raw : String) (reason : Number.ReadError)
  | noWorkers
  deriving DecidableEq, Repr

namespace Settings

/-- The environment variable for the deadline. -/
def deadlineName : String := "THREADSCOPE_DEADLINE_MS"

/-- The deadline in milliseconds where none is asked for. -/
def standardDeadline : Nat := 8000

/-- The deadline that the environment asks for. Blanks around it do not count, and where nothing
else is there the standard one holds. -/
def deadlineOf (setting : Option String) : Except SettingsError Nat :=
  let raw := setting.getD ""
  let trimmed := Text.trim raw.toList
  if trimmed.isEmpty then .ok standardDeadline
  else match Number.readWord (String.ofList trimmed) with
    | .ok n => .ok n.toNat
    | .error e => .error (.deadline raw e)

/-- The settings behind a choice. The environment counts only where no deadline is chosen. -/
def ofChoice (c : CommandLine.Choice) (setting : Option String) :
    Except SettingsError Settings := do
  let deadline ← match c.deadline with
    | some d => .ok d
    | none => deadlineOf setting
  if c.workers = some 0 then .error .noWorkers
  else .ok { deadline, workers := c.workers }

end Settings

def SettingsError.message : SettingsError → String
  | .deadline raw e => s!"invalid {Settings.deadlineName} value {Text.quoted raw}: {e.message}"
  | .noWorkers => "--workers must be at least 1"

end LockTrace
