import LockTrace.Check.Report
import LockTrace.Record.Line

namespace LockTrace.Check

/-- The lines of a text. A line break ends a line, and the last line may lack it. -/
def linesFrom (line : List Char) : List Char → List String
  | [] => if line.isEmpty then [] else [String.ofList line.reverse]
  | c :: cs =>
    if c = '\n' then String.ofList line.reverse :: linesFrom [] cs else linesFrom (c :: line) cs

def lines (cs : List Char) : List String := linesFrom [] cs

/-- The events of a stream, if each of its lines is a record. -/
def events? (bytes : List UInt8) : Option (List Event) :=
  (Text.Utf8.decode? bytes).bind fun cs => (lines cs).mapM fun l => (Record.decode l).toOption

/-- What the checkers say of a stream. `exact` tells whether the records are in the form in which
this library writes them. -/
structure Report where
  records : Nat
  exact : Bool
  lifecycles : String
  exclusion : String
  time : String
  deriving DecidableEq, Repr

def reportOf (bytes : List UInt8) (es : List Event) : Report :=
  ⟨es.length, es.flatMap (fun e => Text.Utf8.encode (Record.encode e).toList) = bytes,
    lifecycles es, exclusion es, time es⟩

/-- The report of a stream, unless one of its lines is no record. -/
def report? (bytes : List UInt8) : Option Report := (events? bytes).map (reportOf bytes)

/-- The kinds and locks of each thread's events, in the order of the stream. -/
def byThread (es : List Event) : List (List (Kind × LockName)) :=
  (es.map (·.tid)).eraseDups.map fun t =>
    (es.filter (·.tid = t)).map fun e => (e.kind, e.lock)

end LockTrace.Check
