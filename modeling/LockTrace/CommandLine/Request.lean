import LockTrace.CommandLine.Item
import LockTrace.Text.Similar

namespace LockTrace.CommandLine

/-- What is wrong with the arguments, each with the name that may have been meant. -/
inductive Problem
  | unknownFlag (flag : String) (hint : Option Flag)
  | unexpected (text : String) (late : Bool) (hint : Option Command)
  | unvalued (flag : Flag)
  | repeated (flag : Flag)
  deriving DecidableEq, Repr

def hintText : Option String → String
  | none => ""
  | some s => s!". Did you mean '{s}'?"

def Problem.message : Problem → String
  | .unknownFlag f hint => s!"unknown flag: {f}" ++ hintText (hint.map (·.long))
  | .unexpected a late hint =>
    (if late then "unexpected positional argument: " else "unexpected argument: ") ++ a ++
      hintText (hint.map (·.word))
  | .unvalued f => s!"flag {f.long} requires a value"
  | .repeated f => s!"argument {f.long} was provided multiple times, but only one value is allowed"

/-- All that the arguments ask for. Switches and values stand in the order in which they were
given. A listing is there if help is to be one, and says whether it is to be short. -/
structure Request where
  listing : Option Bool := none
  switches : List (Flag × Bool) := []
  values : List (Flag × String) := []
  command : Option Command := none
  problems : List Problem := []

namespace Request

def isOn (q : Request) (f : Flag) : Bool := (q.switches.lookup f).getD false

def value? (q : Request) (f : Flag) : Option String := q.values.lookup f

def fault (q : Request) (p : Problem) : Request := { q with problems := q.problems ++ [p] }

/-- The flag that an unknown one may stand for, if only the two dashes are in front of its name. -/
def nearFlag? (flag : String) : Option Flag :=
  match flag.toList with
  | '-' :: '-' :: '-' :: _ => none
  | '-' :: '-' :: name =>
    (Text.closest? (String.ofList name) (Flag.all.map (·.name))).bind Flag.ofName?
  | _ => none

def nearCommand? (text : String) : Option Command :=
  (Text.closest? text (Command.all.map (·.word))).bind Command.ofWord?

/-- Takes up one more item. Of several settings of one flag the first one holds, of several
listings the last one. The first word is the command, and no word may follow it. -/
def take (q : Request) : Item → Request
  | .turned f on =>
    match q.switches.lookup f with
    | none => { q with switches := q.switches ++ [(f, on)] }
    | some _ => q.fault (.repeated f)
  | .given f v =>
    match q.value? f with
    | none => { q with values := q.values ++ [(f, v)] }
    | some _ => q.fault (.repeated f)
  | .unvalued f => q.fault (.unvalued f)
  | .unknown s => q.fault (.unknownFlag s (nearFlag? s))
  | .word w late =>
    match q.command with
    | some _ => q.fault (.unexpected w late none)
    | none =>
      match Command.ofWord? w with
      | some c => { q with command := some c }
      | none => q.fault (.unexpected w late (nearCommand? w))
  | .listing short => { q with listing := some short }

def ofArguments (args : List String) : Request := (items args).foldl take {}

end Request

end LockTrace.CommandLine
