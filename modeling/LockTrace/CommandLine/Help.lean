import LockTrace.CommandLine.Flag

namespace LockTrace.CommandLine

def programName : String := "threadscope-examples"

def versionText : String := s!"{programName} 0.1.0"

def description : String := "Run traced threading workloads; the lock trace goes to stdout"

/-- The line of a flag: its letter or the room for one, and its name with the value it needs. -/
def flagLine (f : Flag) : String :=
  let letter := match f.letter? with
    | some c => String.ofList ['-', c, ',', ' ']
    | none => "    "
  let rest := match f.value? with
    | some v => s!"--{f.name} <{v}>"
    | none => s!"--[no-]{f.name}"
  "    " ++ letter ++ rest

def flagLines (f : Flag) : List String :=
  flagLine f :: (f.about?.map fun s => "            " ++ s).toList

def helpText : String :=
  "\n".intercalate (
    [versionText, "", description, "", "USAGE:", s!"    {programName} [OPTIONS] <COMMAND>", "",
      "OPTIONS:"] ++
    Flag.all.flatMap flagLines ++ ["", "COMMANDS:"] ++
    Command.all.map fun c => "    " ++ c.word)

/-- The call of a command, as it is typed. -/
def callText (c : Command) : String := s!"{programName} {c.word}"

/-- A command takes no options of its own. -/
def commandHelpText (c : Command) : String :=
  "\n".intercalate [callText c, "", description, "", "USAGE:", "    " ++ callText c]

/-- All commands, in short by their calls and else by their pages of help. -/
def listText (short : Bool) : String :=
  if short then "\n".intercalate (Command.all.map callText)
  else "\n\n\n\n".intercalate (Command.all.map commandHelpText)

/-- A command has no commands of its own. -/
def commandListText (c : Command) : String := s!"No subcommands available for {callText c}."

end LockTrace.CommandLine
