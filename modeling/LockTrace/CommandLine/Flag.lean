import LockTrace.Workload.Command

namespace LockTrace.CommandLine

/-- The options of the program. -/
inductive Flag
  | help
  | htmlHelp
  | version
  | completions
  | exportSchemas
  | deadline
  | workers
  deriving DecidableEq, Repr

namespace Flag

def all : List Flag :=
  [.help, .htmlHelp, .version, .completions, .exportSchemas, .deadline, .workers]

/-- The name after the two dashes. -/
def name : Flag → String
  | .help => "help"
  | .htmlHelp => "html-help"
  | .version => "version"
  | .completions => "completions"
  | .exportSchemas => "export-jsonschemas"
  | .deadline => "deadline-ms"
  | .workers => "workers"

/-- The name by which a value of the flag is reported. -/
def key (f : Flag) : String := f.name.map fun c => if c = '-' then '_' else c

def letter? : Flag → Option Char
  | .help => some 'h'
  | .version => some 'V'
  | _ => none

/-- What stands for the value in the help text. A flag without is a switch. -/
def value? : Flag → Option String
  | .completions => some "bash,zsh,fish"
  | .exportSchemas => some "DIR"
  | .deadline => some "U64"
  | .workers => some "USIZE"
  | _ => none

def isSwitch (f : Flag) : Bool := f.value?.isNone

def about? : Flag → Option String
  | .help => some "Show help message and exit."
  | .htmlHelp => some "Open HTML help in the browser and exit."
  | .version => some "Show version and exit."
  | .completions => some "Generate shell completions."
  | .exportSchemas => some "Export JSON Schema files for all config roots."
  | .deadline | .workers => none

/-- The flag as it stands on the command line. -/
def long (f : Flag) : String := "--" ++ f.name

def ofName? (s : String) : Option Flag := all.find? (·.name = s)

def ofLetter? (c : Char) : Option Flag := all.find? (·.letter? = some c)

/-- The switch that a name turns off. -/
def ofNegation? (s : String) : Option Flag :=
  all.find? fun f => f.isSwitch && "no-" ++ f.name = s

end Flag

end LockTrace.CommandLine
