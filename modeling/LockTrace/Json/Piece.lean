import LockTrace.Json.Token

namespace LockTrace.Json

open Number (Binary64)

/-- A value that holds no others. Whole numbers too wide for 64 bits are kept as their decimal
text. -/
inductive Scalar
  | null
  | bool (value : Bool)
  | unsigned (value : Nat)
  | signed (value : Int)
  | real (value : Binary64)
  | text (value : String)
  deriving DecidableEq, Repr

/-- A document taken apart: what a reader meets from left to right. -/
inductive Piece
  | objectStart
  | objectEnd
  | arrayStart
  | arrayEnd
  | key (name : String)
  | scalar (value : Scalar)
  deriving DecidableEq, Repr

/-- What has to come next for the text to be JSON. -/
inductive Wanted
  | value
  | keyOrEnd
  | commaOrObjectEnd
  | valueOrEnd
  | commaOrArrayEnd
  deriving DecidableEq, Repr

def Wanted.phrase : Wanted → String
  | .value => "value"
  | .keyOrEnd => "field name or '\x7d'"
  | .commaOrObjectEnd => "',' or '\x7d'"
  | .valueOrEnd => "value or ']'"
  | .commaOrArrayEnd => "',' or ']'"

/-- Why a text is no JSON document. -/
inductive Fault
  | lexical (cause : LexError)
  | ended (wanted : Wanted)
  | misplaced (got : Token) (wanted : Wanted)
  | noColon (got : Option Lexeme)
  deriving DecidableEq, Repr

def Fault.message : Fault → String
  | .lexical e => e.message
  | .ended w => s!"unexpected end of input, expected {w.phrase}"
  | .misplaced t w => s!"unexpected token: got {t.describe}, expected {w.phrase}"
  | .noColon none => "unexpected token: got Eof, expected ':'"
  | .noColon (some l) => s!"unexpected token: got {l.describe}, expected ':'"

inductive Frame
  | object
  | array
  deriving DecidableEq, Repr

/-- Where the reader stands inside the innermost open container. -/
inductive Place
  | value
  | keyOrEnd
  | memberEnd
  | itemOrEnd
  | itemEnd
  deriving DecidableEq, Repr

/-- Where the reader stands, with the open containers, innermost first. Nothing is read once the
outermost value is complete. -/
inductive Stand
  | at (place : Place) (frames : List Frame)
  | behindKey (key : String) (frames : List Frame)
  | done
  deriving DecidableEq, Repr

/-- Where the reader stands behind a value. -/
def Stand.behindValue : List Frame → Stand
  | [] => .done
  | .object :: frames => .at .memberEnd (.object :: frames)
  | .array :: frames => .at .itemEnd (.array :: frames)

/-- The innermost container is closed. -/
def Stand.behindEnd (frames : List Frame) : Stand := .behindValue (frames.drop 1)

def Token.scalar? : Token → Option Scalar
  | .null => some .null
  | .bool b => some (.bool b)
  | .string s => some (.text s)
  | .unsigned n => some (.unsigned n)
  | .signed i => some (.signed i)
  | .wideUnsigned n => some (.text (toString n))
  | .wideSigned i => some (.text (toString i))
  | .real x => some (.real x)
  | _ => none

/-- A token where a value has to come. -/
def Token.asValue (frames : List Frame) (t : Token) : Except Fault (Option Piece × Stand) :=
  match t with
  | .objectStart => .ok (some .objectStart, .at .keyOrEnd (.object :: frames))
  | .arrayStart => .ok (some .arrayStart, .at .itemOrEnd (.array :: frames))
  | t =>
    match t.scalar? with
    | some s => .ok (some (.scalar s), .behindValue frames)
    | none => .error (.misplaced t .value)

/-- One token of the grammar. A comma may stand before the end of a container. -/
def Token.at (frames : List Frame) (place : Place) (token : Token) :
    Except Fault (Option Piece × Stand) :=
  match place, token with
  | .value, t => t.asValue frames
  | .keyOrEnd, .objectEnd => .ok (some .objectEnd, .behindEnd frames)
  | .keyOrEnd, .string s => .ok (none, .behindKey s frames)
  | .keyOrEnd, t => .error (.misplaced t .keyOrEnd)
  | .memberEnd, .comma => .ok (none, .at .keyOrEnd frames)
  | .memberEnd, .objectEnd => .ok (some .objectEnd, .behindEnd frames)
  | .memberEnd, t => .error (.misplaced t .commaOrObjectEnd)
  | .itemOrEnd, .arrayEnd => .ok (some .arrayEnd, .behindEnd frames)
  | .itemOrEnd, .comma => .error (.misplaced .comma .valueOrEnd)
  | .itemOrEnd, .colon => .error (.misplaced .colon .valueOrEnd)
  | .itemOrEnd, t => t.asValue frames
  | .itemEnd, .comma => .ok (none, .at .itemOrEnd frames)
  | .itemEnd, .arrayEnd => .ok (some .arrayEnd, .behindEnd frames)
  | .itemEnd, t => .error (.misplaced t .commaOrArrayEnd)

/-- What is missing when the text ends at a place. -/
def Place.wanted : Place → Wanted
  | .value => .value
  | .keyOrEnd => .keyOrEnd
  | .memberEnd => .commaOrObjectEnd
  | .itemOrEnd => .valueOrEnd
  | .itemEnd => .commaOrArrayEnd

/-- What is wrong with a text that ends here. -/
def Stand.endFault : Stand → Option Fault
  | .at place _ => some (.ended place.wanted)
  | .behindKey _ _ => some (.noColon none)
  | .done => none

/-- One lexeme of the grammar. The one behind a key is only compared with a colon and not read. -/
def Stand.lexeme (stand : Stand) (l : Lexeme) : Except Fault (Option Piece × Stand) :=
  match stand with
  | .done => .ok (none, .done)
  | .behindKey k frames =>
    if l = .colon then .ok (some (.key k), .at .value frames) else .error (.noColon (some l))
  | .at place frames =>
    match l.token with
    | .error e => .error (.lexical e)
    | .ok t => t.at frames place

/-- The pieces of a text from left to right, and the fault that stopped the reading if one did. -/
structure Reading where
  pieces : List Piece
  fault : Option Fault
  deriving DecidableEq, Repr

/-- Reads lexeme by lexeme. What was found is kept last first. The fuel is a number of lexemes. -/
def readFrom : Nat → List Piece → Stand → Nat → List UInt8 → Reading
  | 0, found, _, _, _ => ⟨found.reverse, none⟩
  | _ + 1, found, .done, _, _ => ⟨found.reverse, none⟩
  | fuel + 1, found, stand, pos, bs =>
    match next pos bs with
    | .error e => ⟨found.reverse, some (.lexical e)⟩
    | .ok none => ⟨found.reverse, stand.endFault⟩
    | .ok (some (l, pos, rest)) =>
      match stand.lexeme l with
      | .error f => ⟨found.reverse, some f⟩
      | .ok (piece, stand) => readFrom fuel (piece.toList ++ found) stand pos rest

/-- Every lexeme has a byte, so a text has no more lexemes than bytes. -/
def read (bs : List UInt8) : Reading := readFrom (bs.length + 1) [] (.at .value []) 0 bs

/-- How many pieces are made ready at a time. -/
def batchSize : Nat := 512

/-- What a consumer gets to see: pieces come in full batches, and a fault stops the batch that it
falls into. -/
def Reading.delivered (r : Reading) : Reading :=
  match r.fault with
  | none => r
  | some _ => { r with pieces := r.pieces.take (r.pieces.length / batchSize * batchSize) }

end LockTrace.Json
