import LockTrace.Json.Escape
import LockTrace.Record.Reader

namespace LockTrace.Record

/-- Why a text is no record: it is no JSON, or JSON of another shape. -/
inductive ReadError
  | fault (cause : Json.Fault)
  | mismatch (cause : Mismatch)
  deriving DecidableEq, Repr

def ReadError.message : ReadError → String
  | .fault f => f.message
  | .mismatch m => m.message

/-- What can be wrong with a line. `other` is what a JSON writer or reader may say beyond this
library's own causes. -/
inductive LineError
  | unreadable (cause : ReadError)
  | other (reason : String)
  | severalRecords
  | unnamed
  deriving DecidableEq, Repr

def LineError.message : LineError → String
  | .unreadable e => e.message
  | .other reason => reason
  | .severalRecords => "expected a single record, found several lines"
  | .unnamed => s!"invalid record: {emptyLockMessage}"

/-- A record as text, without the line break. -/
def body (e : Event) : List Char :=
  "\x7b\"type\":".toList ++ Json.quote e.kind.name ++
    ",\"time\":".toList ++ Nat.toDigits 10 e.time.count.toNat ++
    ",\"tid\":".toList ++ Json.quote e.tid ++
    ",\"lock\":".toList ++ Json.quote e.lock.text ++ ['\x7d']

/-- A record as a line of the stream. -/
def encode (e : Event) : String := String.ofList (body e ++ ['\n'])

/-- A line break at the end is no part of the record, and neither is a carriage return before
it. -/
def strip (cs : List Char) : List Char :=
  let cs := if cs.getLast? = some '\n' then cs.dropLast else cs
  if cs.getLast? = some '\r' then cs.dropLast else cs

/-- A document as a record. Pieces that a fault withholds are asked for in vain, and then the
fault is what is wrong. -/
def readDocument (bs : List UInt8) : Except ReadError Raw :=
  let reading := (Json.read bs).delivered
  match readPieces reading.pieces, reading.fault with
  | .error .exhausted, some f => .error (.fault f)
  | .error m, _ => .error (.mismatch m)
  | .ok raw, _ => .ok raw

/-- A record whose label is not empty. -/
def Raw.event? (r : Raw) : Option Event :=
  (LockName.ofString? r.lock).map fun lock => ⟨r.kind, ⟨r.time⟩, r.tid, lock⟩

/-- Reads one line of the stream, with or without its line break. -/
def decode (line : String) : Except LineError Event :=
  let cs := strip line.toList
  if '\n' ∈ cs then .error .severalRecords
  else match readDocument (Text.Utf8.encode cs) with
    | .error e => .error (.unreadable e)
    | .ok raw =>
      match raw.event? with
      | none => .error .unnamed
      | some e => .ok e

end LockTrace.Record
