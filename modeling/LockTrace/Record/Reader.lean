import LockTrace.Number.Reader
import LockTrace.Record.Member

namespace LockTrace.Record

open Json (Piece Scalar)

/-- What follows the next value, of which so many containers are already open. Keys are passed
over, and an end with nothing open counts as a value. -/
def skipFrom : Nat → List Piece → Option (List Piece)
  | _, [] => none
  | depth, .objectStart :: ps => skipFrom (depth + 1) ps
  | depth, .arrayStart :: ps => skipFrom (depth + 1) ps
  | depth, .objectEnd :: ps => if depth ≤ 1 then some ps else skipFrom (depth - 1) ps
  | depth, .arrayEnd :: ps => if depth ≤ 1 then some ps else skipFrom (depth - 1) ps
  | depth, .key _ :: ps => skipFrom depth ps
  | depth, .scalar _ :: ps => if depth = 0 then some ps else skipFrom depth ps

/-- What follows the next value. -/
def skip (ps : List Piece) : Option (List Piece) := skipFrom 0 ps

theorem skipFrom_length {depth : Nat} {ps rest : List Piece}
    (h : skipFrom depth ps = some rest) : rest.length < ps.length := by
  fun_induction skipFrom depth ps <;> simp_all <;> omega

theorem skip_length {ps rest : List Piece} (h : skip ps = some rest) :
    rest.length < ps.length := skipFrom_length h

/-- The key that names the one value of an object which stands for that value. -/
def argumentKey : String := "_arg"

/-- The value of an object that stands for a single scalar: the last one under the argument key
before the object ends, and what follows the object. -/
def readNode (found : Option Scalar) : List Piece → Except Mismatch (Option Scalar × List Piece)
  | [] => .error .exhausted
  | .objectEnd :: ps => .ok (found, ps)
  | .key k :: ps =>
    if k = argumentKey then
      match ps with
      | [] => .error .exhausted
      | .scalar s :: rest => readNode (some s) rest
      | _ :: rest =>
        match _h : skip rest with
        | none => .error .exhausted
        | some rest => readNode found rest
    else
      match _h : skip ps with
      | none => .error .exhausted
      | some rest => readNode found rest
  | _ :: ps => readNode found ps
termination_by ps => ps.length
decreasing_by
  all_goals simp only [List.length_cons]
  · omega
  · have := skip_length _h; omega
  · have := skip_length _h; omega
  · omega

/-- The scalar in the place of a member's value, plain or inside an object. -/
def readScalar (m : Member) : List Piece → Except Mismatch (Scalar × List Piece)
  | .scalar s :: ps => .ok (s, ps)
  | .arrayStart :: _ => .error (.sequence m)
  | .objectStart :: ps =>
    match readNode none ps with
    | .error e => .error e
    | .ok (none, _) => .error (.noArgument m)
    | .ok (some s, rest) => .ok (s, rest)
  | _ => .error .exhausted

/-- A scalar as text: a number gives its plain decimal form, and null the empty text. -/
def Member.textOf (m : Member) : Scalar → Except Mismatch String
  | .null => .ok ""
  | .bool _ => .error (.boolean m)
  | .unsigned n => .ok (toString n)
  | .signed i => .ok (toString i)
  | .real x => .ok x.text
  | .text s => .ok s

/-- A text as a count of milliseconds. -/
def parseCount (s : String) : Except Mismatch UInt64 :=
  match Number.readWord s with
  | .ok n => .ok n
  | .error _ => .error (.unparsable .time s)

/-- A scalar as a count of milliseconds: a number with a fraction goes through its decimal form,
and null is zero. -/
def countOf : Scalar → Except Mismatch UInt64
  | .null => .ok 0
  | .bool _ => .error (.boolean .time)
  | .unsigned n => .ok (UInt64.ofNat n)
  | .signed i => if i < 0 then .error (.negative i) else .ok (UInt64.ofNat i.toNat)
  | .real x => parseCount x.text
  | .text s => parseCount s

/-- A scalar that is no kind, as a message shows it. -/
def showScalar : Scalar → String
  | .null => "null"
  | .bool b => s!"bool({Json.flag b})"
  | .unsigned n => s!"u64({n})"
  | .signed i => s!"i64({i})"
  | .real x => s!"f64({x.text})"
  | .text s => s

def kindNamed (s : String) : Except Mismatch Kind :=
  match Kind.ofName? s with
  | some k => .ok k
  | none => .error (.unknownKind s)

/-- The end of an object that names a kind, which must follow. -/
def closeKind (k : Kind) : List Piece → Except Mismatch (Kind × List Piece)
  | .objectEnd :: ps => .ok (k, ps)
  | p :: _ => .error (.kindUnclosed k p)
  | [] => .error .exhausted

/-- What follows the name of a kind inside an object: nothing, or an empty object. -/
def readKindBody (k : Kind) : List Piece → Except Mismatch (Kind × List Piece)
  | .objectStart :: .objectEnd :: ps => closeKind k ps
  | .objectStart :: p :: _ => .error (.kindFilled k p)
  | [.objectStart] => .error .exhausted
  | ps => closeKind k ps

/-- A kind: its name as a text, or as the only key of an object. -/
def readKind : List Piece → Except Mismatch (Kind × List Piece)
  | .scalar (.text s) :: ps => (kindNamed s).map (·, ps)
  | .scalar s :: _ => .error (.unknownKind (showScalar s))
  | .arrayStart :: _ => .error .kindSequence
  | .objectStart :: .key s :: ps =>
    match kindNamed s with
    | .error e => .error e
    | .ok k => readKindBody k ps
  | .objectStart :: p :: _ => .error (.kindUnnamed p)
  | _ => .error .exhausted

/-- The members found so far. -/
structure Draft where
  kind : Option Kind := none
  time : Option UInt64 := none
  tid : Option String := none
  lock : Option String := none
  deriving DecidableEq, Repr

/-- A record as it was read, its label not yet looked at. -/
structure Raw where
  kind : Kind
  time : UInt64
  tid : String
  lock : String
  deriving DecidableEq, Repr

def Draft.has (d : Draft) : Member → Bool
  | .kind => d.kind.isSome
  | .time => d.time.isSome
  | .tid => d.tid.isSome
  | .lock => d.lock.isSome

/-- Reads the value of a member into the draft. -/
def Draft.readMember (d : Draft) (ps : List Piece) : Member → Except Mismatch (Draft × List Piece)
  | .kind => do
    let (k, rest) ← readKind ps
    return ({ d with kind := some k }, rest)
  | .time => do
    let (s, rest) ← readScalar .time ps
    return ({ d with time := some (← countOf s) }, rest)
  | .tid => do
    let (s, rest) ← readScalar .tid ps
    return ({ d with tid := some (← Member.textOf .tid s) }, rest)
  | .lock => do
    let (s, rest) ← readScalar .lock ps
    return ({ d with lock := some (← Member.textOf .lock s) }, rest)

/-- The record of a complete draft; of several missing members the first is reported. -/
def Draft.finish (d : Draft) : Except Mismatch Raw :=
  match d.kind, d.time, d.tid, d.lock with
  | some kind, some time, some tid, some lock => .ok ⟨kind, time, tid, lock⟩
  | none, _, _, _ => .error (.missing .kind)
  | _, none, _, _ => .error (.missing .time)
  | _, _, none, _ => .error (.missing .tid)
  | _, _, _, none => .error (.missing .lock)

/-- Reads members up to the end of the object. A member may come once; members of other keys are
passed over. The fuel is a number of pieces. -/
def readMembers : Nat → Draft → List Piece → Except Mismatch Raw
  | 0, _, _ => .error .exhausted
  | _ + 1, _, [] => .error .exhausted
  | _ + 1, d, .objectEnd :: _ => d.finish
  | fuel + 1, d, .key k :: ps =>
    match Member.ofKey? k with
    | none =>
      match skip ps with
      | none => .error .exhausted
      | some rest => readMembers fuel d rest
    | some m =>
      if d.has m then .error (.duplicate m)
      else match d.readMember ps m with
        | .error e => .error e
        | .ok (d, rest) => readMembers fuel d rest
  | _ + 1, _, p :: _ => .error (.notMember p)

/-- The record that the pieces spell. -/
def readPieces : List Piece → Except Mismatch Raw
  | [] => .error .exhausted
  | .objectStart :: ps => readMembers ps.length {} ps
  | p :: _ => .error (.notObject p)

end LockTrace.Record
