import LockTrace.Notice
import LockTrace.Text.Blank
import LockTrace.Text.Utf8

namespace LockTrace

/-- Where the records of a whole process go. -/
inductive Target
  | stdout
  | stderr
  | off
  deriving DecidableEq, Repr

namespace Target

def text : Target → String
  | .stdout => "stdout"
  | .stderr => "stderr"
  | .off => "off"

/-- The target of a process that was told nothing. -/
def standard : Target := .stdout

/-- The environment variable that names the target. -/
def settingName : String := "THREADSCOPE_SINK"

/-- The spellings of the targets. Letters of either case count, but only those of ASCII. -/
def ofWord? (w : String) : Option Target :=
  if w ∈ ["stdout", "1"] then some .stdout
  else if w ∈ ["stderr"] then some .stderr
  else if w ∈ ["off", "none", "0"] then some .off
  else none

def unrecognized (value : String) : Notice :=
  ⟨.warn, s!"unrecognized {settingName} value, tracing to {standard.text}", [("value", value)]⟩

/-- Reads a setting, blanks around it aside. No setting and a blank one stand for the standard
target; so does a word of no meaning, which is worth a warning. -/
def ofSetting (setting : Option String) : Target × List Notice :=
  let trimmed := String.ofList (Text.trim (setting.getD "").toList)
  match ofWord? (trimmed.map Char.toLower) with
  | some t => (t, [])
  | none => if trimmed = "" then (standard, []) else (standard, [unrecognized trimmed])

end Target

/-- The value of an environment variable, which is a text only if its bytes are. -/
def settingOfBytes (bytes : List UInt8) : Option String :=
  (Text.Utf8.decode? bytes).map String.ofList

end LockTrace
