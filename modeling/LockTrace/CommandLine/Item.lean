import LockTrace.CommandLine.Flag

namespace LockTrace.CommandLine

/-- What one argument means, or a flag together with the argument that is its value. A word is late
if it follows the separator. A listing asks for the commands instead of a page of help. -/
inductive Item
  | turned (flag : Flag) (on : Bool)
  | given (flag : Flag) (value : String)
  | unvalued (flag : Flag)
  | unknown (flag : String)
  | word (text : String) (late : Bool)
  | listing (short : Bool)
  deriving DecidableEq, Repr

/-- Whether the value of a switch turns it on. Every other value turns it off. -/
def turnsOn (value : List Char) : Bool :=
  String.ofList (value.map Char.toLower) ∈ ["", "true", "yes", "1", "on"]

/-- A letter after a single dash: a switch with its value. -/
def letter (c : Char) (value : List Char) : Item :=
  match Flag.ofLetter? c with
  | some f => .turned f (turnsOn value)
  | none => .unknown (String.ofList ['-', c])

/-- The letters after a single dash. A letter that stands alone before an equality sign has what
follows as its value, if it takes up one byte; in a group the sign is a letter like any other. -/
def letters : List Char → List Item
  | c :: '=' :: value =>
    if c.utf8Size = 1 ∧ c ≠ '=' then [letter c value]
    else (c :: '=' :: value).map (letter · [])
  | cs => cs.map (letter · [])

/-- The parts of a text before and after the first equality sign. -/
def splitValue (cs : List Char) : List Char × Option (List Char) :=
  let (name, rest) := cs.span (· ≠ '=')
  (name, if rest.isEmpty then none else some rest.tail)

/-- What an argument says by itself. -/
inductive Form
  | complete (items : List Item)
  | awaits (flag : Flag)
  | help
  | separator

/-- The form of what stands after two dashes. A switch may have a value, and one that is turned off
by its name ignores it. -/
def longForm (cs : List Char) : Form :=
  let (name, value) := splitValue cs
  let name := String.ofList name
  match Flag.ofName? name with
  | some f =>
    if f.isSwitch then .complete [.turned f (turnsOn (value.getD []))]
    else match value with
      | some v => .complete [.given f (String.ofList v)]
      | none => .awaits f
  | none =>
    match Flag.ofNegation? name with
    | some f => .complete [.turned f false]
    | none => .complete [.unknown ("--" ++ name)]

/-- The form of an argument. With a third dash it is no flag at all, and is not taken apart. -/
def formOf (arg : String) : Form :=
  match arg.toList with
  | ['-', '-'] => .separator
  | '-' :: '-' :: '-' :: _ => .complete [.unknown arg]
  | '-' :: '-' :: cs => longForm cs
  | '-' :: c :: cs => .complete (letters (c :: cs))
  | _ => if arg = "help" then .help else .complete [.word arg false]

/-- What the word for help asks for: that, and a listing if the next words ask for one. The
arguments after them are left. -/
def helpItems : List String → List Item × List String
  | "list" :: "--short" :: rest => ([.turned .help true, .listing true], rest)
  | "list" :: rest => ([.turned .help true, .listing false], rest)
  | rest => ([.turned .help true], rest)

/-- The word for help leaves no more arguments than there were behind it. -/
theorem helpItems_length (args : List String) : (helpItems args).2.length ≤ args.length := by
  unfold helpItems
  split <;> simp only [List.length_cons] <;> omega

/-- The items behind the separator: words, whatever they look like. -/
def lateItems : List String → List Item
  | [] => []
  | arg :: rest =>
    if arg = "help" then (helpItems rest).1 ++ lateItems (helpItems rest).2
    else .word arg true :: lateItems rest
termination_by args => args.length
decreasing_by
  · have := helpItems_length rest
    simp only [List.length_cons]
    omega
  · simp only [List.length_cons]
    omega

/-- The items of a list of arguments. A flag that needs a value takes the next argument, whatever
it looks like, unless the value follows an equality sign. -/
def items : List String → List Item
  | [] => []
  | arg :: rest =>
    match formOf arg with
    | .separator => lateItems rest
    | .help => (helpItems rest).1 ++ items (helpItems rest).2
    | .complete is => is ++ items rest
    | .awaits f =>
      match rest with
      | [] => [.unvalued f]
      | v :: rest => .given f v :: items rest
termination_by args => args.length
decreasing_by
  · have := helpItems_length rest
    simp only [List.length_cons]
    omega
  all_goals
    simp only [List.length_cons]
    omega

end LockTrace.CommandLine
