import LockTrace.CommandLine.Help
import LockTrace.CommandLine.Request
import LockTrace.Number.Reader

namespace LockTrace.CommandLine

/-- What is chosen to be run, and with which numbers. -/
structure Choice where
  deadline : Option Nat
  workers : Option Nat
  command : Command
  deriving DecidableEq, Repr

/-- Why nothing is run. Whoever asks for help or the version gets it, and whoever names no command
gets help. -/
inductive Usage
  | help (command : Option Command)
  | list (command : Option Command) (short : Bool)
  | version
  | problems (ps : List Problem)
  | unreadable (flag : Flag) (value : String)
  deriving DecidableEq, Repr

namespace Usage

/-- The kind of number that a flag needs. -/
def numberName : Flag → String
  | .workers => "usize"
  | _ => "u64"

/-- A report says each thing on a line of its own, and what follows a line break is no part of
it. The break may be a carriage return with a line feed. -/
def reportLine (s : String) : String :=
  let line := s.toList.takeWhile (· ≠ '\n')
  String.ofList (if line.getLast? = some '\r' then line.dropLast else line)

def message : Usage → String
  | .help none => helpText
  | .help (some c) => commandHelpText c
  | .list none short => listText short
  | .list (some c) _ => commandListText c
  | .version => versionText
  | .problems ps => " | ".intercalate (ps.map fun p => reportLine p.message)
  | .unreadable f v => reportLine s!"failed to parse \"{v}\" as {numberName f} at {f.key}"

end Usage

/-- The number that is given for a flag. -/
def number? (f : Flag) (v : String) : Except Usage Nat :=
  match Number.readWord v with
  | .ok n => .ok n.toNat
  | .error _ => .error (.unreadable f v)

/-- The numbers among the values, in the order in which they were given. -/
def numbers (values : List (Flag × String)) : Except Usage (List (Flag × Nat)) :=
  (values.filter fun (f, _) => f = .deadline ∨ f = .workers).mapM fun (f, v) =>
    (number? f v).map (f, ·)

/-- The choice behind a request. Help comes before the version, both come before all problems, and
values are read only when a command is there. -/
def Request.choice (q : Request) : Except Usage Choice :=
  if q.isOn .help then
    match q.listing with
    | some short => .error (.list q.command short)
    | none => .error (.help q.command)
  else if q.isOn .version then .error .version
  else if ¬ q.problems.isEmpty then .error (.problems q.problems)
  else match q.command with
    | none => .error (.help none)
    | some command => (numbers q.values).map fun ns =>
        { deadline := ns.lookup .deadline, workers := ns.lookup .workers, command }

def choose (args : List String) : Except Usage Choice := (Request.ofArguments args).choice

end LockTrace.CommandLine
