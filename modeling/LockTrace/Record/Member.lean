import LockTrace.Event.Basic
import LockTrace.Json.Piece

namespace LockTrace.Record

/-- The four members of a record. -/
inductive Member
  | kind
  | time
  | tid
  | lock
  deriving DecidableEq, Repr

namespace Member

def all : List Member := [.kind, .time, .tid, .lock]

/-- The key in the text. -/
def key : Member → String
  | .kind => "type"
  | .time => "time"
  | .tid => "tid"
  | .lock => "lock"

/-- The member's name where a message speaks of its absence. -/
def title : Member → String
  | .kind => "kind"
  | m => m.key

/-- The member's value where a message speaks of its place. -/
def path : Member → String
  | .kind => "kind"
  | m => m.key ++ ".0"

/-- The type of the member's value. -/
def typeName : Member → String
  | .time => "u64"
  | _ => "String"

def ofKey? (k : String) : Option Member := all.find? (·.key = k)

end Member

/-- The family of a piece where a message speaks of it. -/
def family : Json.Piece → String
  | .objectStart => "struct start"
  | .objectEnd => "struct end"
  | .arrayStart => "sequence start"
  | .arrayEnd => "sequence end"
  | .key _ => "field key"
  | .scalar _ => "scalar"

/-- Why a JSON document is no record. `exhausted` means that the pieces ran out. -/
inductive Mismatch
  | exhausted
  | notObject (got : Json.Piece)
  | notMember (got : Json.Piece)
  | duplicate (m : Member)
  | missing (m : Member)
  | unknownKind (shown : String)
  | kindSequence
  | kindUnnamed (got : Json.Piece)
  | kindFilled (k : Kind) (got : Json.Piece)
  | kindUnclosed (k : Kind) (got : Json.Piece)
  | boolean (m : Member)
  | negative (value : Int)
  | unparsable (m : Member) (text : String)
  | sequence (m : Member)
  | noArgument (m : Member)
  deriving DecidableEq, Repr

def unexpected (got expected place : String) : String :=
  s!"unexpected token: got {got}, expected {expected} at {place}"

def Mismatch.message : Mismatch → String
  | .exhausted => "unexpected end of input, expected value"
  | .notObject p => unexpected (family p) "struct start" "<root>"
  | .notMember p => unexpected (family p) "field key or struct end" "<root>"
  | .duplicate m => "duplicate field \x60" ++ m.key ++ "\x60 at <root>"
  | .missing m => "missing field \x60" ++ m.title ++ "\x60 in type \x60Event\x60 at <root>"
  | .unknownKind shown => unexpected shown "known enum variant" "kind"
  | .kindSequence => unexpected "sequence start" "string or struct for enum" "kind"
  | .kindUnnamed p => unexpected (family p) "variant name" "kind"
  | .kindFilled k p => unexpected (family p) "empty struct for unit variant" ("kind::" ++ k.title)
  | .kindUnclosed k p =>
    unexpected (family p) "struct end after enum variant" ("kind::" ++ k.title)
  | .boolean m => s!"Wrong shape: expected {m.typeName}, but got bool at {m.path}"
  | .negative i => "number \x60" ++ toString i ++ "\x60 out of range for u64"
  | .unparsable m text => "failed to parse \"" ++ text ++ s!"\" as {m.typeName} at {m.path}"
  | .sequence m => unexpected "sequence start" "scalar value" m.path
  | .noArgument m =>
    unexpected "node without argument" "scalar value or node with argument" m.path

end LockTrace.Record
