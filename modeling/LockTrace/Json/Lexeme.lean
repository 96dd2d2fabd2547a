import LockTrace.Text.Quoted

namespace LockTrace.Json

inductive NumberForm
  | unsigned
  | signed
  | float
  deriving DecidableEq, Repr

/-- A stretch of text that the reader has found the borders of but not yet read. Offsets count
bytes; those of a string leave its quotes out. -/
inductive Lexeme
  | objectStart
  | objectEnd
  | arrayStart
  | arrayEnd
  | colon
  | comma
  | null
  | bool (value : Bool)
  | string (start stop : Nat) (body : List UInt8) (hasEscapes : Bool)
  | number (start stop : Nat) (text : List UInt8) (form : NumberForm)
  deriving DecidableEq, Repr

/-- The part of a text in whose middle a text can end. -/
inductive Part
  | literal
  | string
  | escape
  deriving DecidableEq, Repr

/-- What can be wrong with the text of a single lexeme. -/
inductive LexError
  | stray (byte : UInt8)
  | endedIn (part : Part)
  | notUtf8
  deriving DecidableEq, Repr

def Part.phrase : Part → String
  | .literal => "in literal"
  | .string => "in string"
  | .escape => "in unicode escape"

def LexError.message : LexError → String
  | .stray b => s!"unexpected character {Text.quotedChar (Char.ofNat b.toNat)}, " ++
      "expected valid JSON token"
  | .endedIn p => s!"unexpected end of input, expected {p.phrase}"
  | .notUtf8 => "invalid UTF-8"

/-- A number or escape that has the right letters in the wrong places is reported as a question
mark. -/
def LexError.malformed : LexError := .stray 0x3f

def NumberForm.title : NumberForm → String
  | .unsigned => "Unsigned"
  | .signed => "Signed"
  | .float => "Float"

def flag (b : Bool) : String := if b then "true" else "false"

def Lexeme.describe : Lexeme → String
  | .objectStart => "ObjectStart"
  | .objectEnd => "ObjectEnd"
  | .arrayStart => "ArrayStart"
  | .arrayEnd => "ArrayEnd"
  | .colon => "Colon"
  | .comma => "Comma"
  | .null => "Null"
  | .bool b => if b then "True" else "False"
  | .string start stop _ escapes =>
    "String \x7b " ++ s!"start: {start}, end: {stop}, has_escapes: {flag escapes}" ++ " \x7d"
  | .number start stop _ form =>
    "Number \x7b " ++ s!"start: {start}, end: {stop}, hint: {form.title}" ++ " \x7d"

def isSpace (b : UInt8) : Bool := b = 0x20 || b = 0x09 || b = 0x0a || b = 0x0d

def isDigit (b : UInt8) : Bool := 0x30 ≤ b && b ≤ 0x39

/-- Compares byte by byte and stops at the first difference. What follows is not looked at. -/
def scanLiteral : List UInt8 → List UInt8 → Except LexError (List UInt8)
  | [], bs => .ok bs
  | _ :: _, [] => .error (.endedIn .literal)
  | w :: ws, b :: bs => if b = w then scanLiteral ws bs else .error (.stray b)

/-- What follows the letter of a unicode escape: four bytes, whatever they are, and six more if
they open another escape. -/
def scanUnicode (found : List UInt8) : List UInt8 → Except LexError (List UInt8 × List UInt8)
  | a :: b :: c :: d :: bs =>
    let found := d :: c :: b :: a :: found
    match bs with
    | 0x5c :: 0x75 :: rest =>
      match rest with
      | e :: f :: g :: h :: rest => .ok (h :: g :: f :: e :: 0x75 :: 0x5c :: found, rest)
      | _ => .error (.endedIn .escape)
    | _ => .ok (found, bs)
  | _ => .error (.endedIn .escape)

theorem scanUnicode_length {found found' bs rest : List UInt8}
    (h : scanUnicode found bs = .ok (found', rest)) : rest.length ≤ bs.length := by
  unfold scanUnicode at h
  split at h
  · split at h
    · split at h
      · cases h; simp only [List.length_cons]; omega
      · simp at h
    · cases h; simp only [List.length_cons]; omega
  · simp at h

/-- The bytes up to the closing quote, whether a backslash is among them, and what follows the
quote. A backslash keeps the next byte from closing the string. -/
def scanString (found : List UInt8) (escapes : Bool) (bs : List UInt8) :
    Except LexError (List UInt8 × Bool × List UInt8) :=
  match bs with
  | [] => .error (.endedIn .string)
  | b :: bs =>
    if b = 0x22 then .ok (found.reverse, escapes, bs)
    else if b = 0x5c then
      match bs with
      | [] => .error (.endedIn .string)
      | c :: bs =>
        if c = 0x75 then
          match _h : scanUnicode (c :: b :: found) bs with
          | .error e => .error e
          | .ok (found, rest) => scanString found true rest
        else scanString (c :: b :: found) true bs
    else scanString (b :: found) escapes bs
termination_by bs.length
decreasing_by
  all_goals simp only [List.length_cons]
  · have := scanUnicode_length _h; omega
  · omega
  · omega

/-- The digits at the start and what follows them. -/
def spanDigits (bs : List UInt8) : List UInt8 × List UInt8 :=
  (bs.takeWhile isDigit, bs.dropWhile isDigit)

/-- An optional minus sign. -/
def spanMinus : List UInt8 → List UInt8 × List UInt8
  | 0x2d :: bs => ([0x2d], bs)
  | bs => ([], bs)

/-- An optional point and the digits behind it. -/
def spanFraction : List UInt8 → List UInt8 × List UInt8
  | 0x2e :: bs => (0x2e :: (spanDigits bs).1, (spanDigits bs).2)
  | bs => ([], bs)

/-- An optional sign of either kind and the digits behind it. -/
def spanSignedDigits : List UInt8 → List UInt8 × List UInt8
  | b :: bs =>
    if b = 0x2b ∨ b = 0x2d then (b :: (spanDigits bs).1, (spanDigits bs).2)
    else spanDigits (b :: bs)
  | [] => ([], [])

/-- An optional exponent. -/
def spanExponent : List UInt8 → List UInt8 × List UInt8
  | b :: bs =>
    if b = 0x65 ∨ b = 0x45 then (b :: (spanSignedDigits bs).1, (spanSignedDigits bs).2)
    else ([], b :: bs)
  | [] => ([], [])

/-- The longest stretch of the shape of a number, its form, and what follows it. Any group of
digits may be missing. -/
def spanNumber (bs : List UInt8) : List UInt8 × NumberForm × List UInt8 :=
  let (minus, bs) := spanMinus bs
  let (whole, bs) := spanDigits bs
  let (fraction, bs) := spanFraction bs
  let (exponent, bs) := spanExponent bs
  let form :=
    if fraction ≠ [] ∨ exponent ≠ [] then .float
    else if minus ≠ [] then .signed
    else .unsigned
  (minus ++ whole ++ fraction ++ exponent, form, bs)

/-- A number at the given offset. A minus sign alone is none. -/
def scanNumber (pos : Nat) (bs : List UInt8) : Except LexError (Lexeme × Nat × List UInt8) :=
  let (text, form, rest) := spanNumber bs
  if text = [0x2d] then .error (.stray (rest.headD 0x3f))
  else .ok (.number pos (pos + text.length) text form, pos + text.length, rest)

/-- The lexeme that starts with this byte, at the given offset, and what follows it. -/
def scan (pos : Nat) (b : UInt8) (bs : List UInt8) :
    Except LexError (Lexeme × Nat × List UInt8) :=
  if b = 0x7b then .ok (.objectStart, pos + 1, bs)
  else if b = 0x7d then .ok (.objectEnd, pos + 1, bs)
  else if b = 0x5b then .ok (.arrayStart, pos + 1, bs)
  else if b = 0x5d then .ok (.arrayEnd, pos + 1, bs)
  else if b = 0x3a then .ok (.colon, pos + 1, bs)
  else if b = 0x2c then .ok (.comma, pos + 1, bs)
  else if b = 0x22 then do
    let (body, escapes, rest) ← scanString [] false bs
    let stop := pos + 1 + body.length
    return (.string (pos + 1) stop body escapes, stop + 1, rest)
  else if b = 0x74 then do
    return (.bool true, pos + 4, ← scanLiteral [0x72, 0x75, 0x65] bs)
  else if b = 0x66 then do
    return (.bool false, pos + 5, ← scanLiteral [0x61, 0x6c, 0x73, 0x65] bs)
  else if b = 0x6e then do
    return (.null, pos + 4, ← scanLiteral [0x75, 0x6c, 0x6c] bs)
  else if b = 0x2d ∨ isDigit b then scanNumber pos (b :: bs)
  else .error (.stray b)

/-- The next lexeme behind any space, with the offset and the text that follow it; none at the
end of the text. -/
def next (pos : Nat) (bs : List UInt8) : Except LexError (Option (Lexeme × Nat × List UInt8)) :=
  match bs with
  | [] => .ok none
  | b :: bs => if isSpace b then next (pos + 1) bs else (scan pos b bs).map some

end LockTrace.Json
