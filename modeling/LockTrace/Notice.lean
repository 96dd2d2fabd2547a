namespace LockTrace

inductive Level
  | debug
  | info
  | warn
  | error
  deriving DecidableEq, Repr

def Level.title : Level → String
  | .debug => "DEBUG"
  | .info => "INFO"
  | .warn => "WARN"
  | .error => "ERROR"

/-- Something said beside the stream of records: a message and named values in a fixed order. -/
structure Notice where
  level : Level
  message : String
  fields : List (String × String) := []
  deriving DecidableEq, Repr

namespace Notice

def text (n : Notice) : String :=
  n.fields.foldl (fun s (name, value) => s ++ s!" {name}={value}") (s!"{n.level.title} {n.message}")

/-- The notice without the fields of these names. -/
def hide (names : List String) (n : Notice) : Notice :=
  { n with fields := n.fields.filter fun f => f.1 ∉ names }

end Notice

end LockTrace
