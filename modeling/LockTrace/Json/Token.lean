import LockTrace.Json.Lexeme
import LockTrace.Number.Reader
import LockTrace.Number.Text
import LockTrace.Text.Utf8

namespace LockTrace.Json

open Number (Binary64)

/-- A lexeme that has been read. Whole numbers keep the width they were found to need. -/
inductive Token
  | objectStart
  | objectEnd
  | arrayStart
  | arrayEnd
  | colon
  | comma
  | null
  | bool (value : Bool)
  | string (text : String)
  | unsigned (value : Nat)
  | signed (value : Int)
  | wideUnsigned (value : Nat)
  | wideSigned (value : Int)
  | real (value : Binary64)
  deriving DecidableEq, Repr

def Token.describe : Token → String
  | .objectStart => "ObjectStart"
  | .objectEnd => "ObjectEnd"
  | .arrayStart => "ArrayStart"
  | .arrayEnd => "ArrayEnd"
  | .colon => "Colon"
  | .comma => "Comma"
  | .null => "Null"
  | .bool b => if b then "True" else "False"
  | .string s => s!"String({Text.quoted s})"
  | .unsigned n => s!"U64({n})"
  | .signed i => s!"I64({i})"
  | .wideUnsigned n => s!"U128({n})"
  | .wideSigned i => s!"I128({i})"
  | .real x => s!"F64({x.typedText})"

/-- The letter behind a backslash. A letter without a meaning of its own stands for itself, and a
byte that is no letter for the code point of its number. -/
def unescapeByte (b : UInt8) : Char :=
  if b = 0x62 then '\x08'
  else if b = 0x66 then '\x0c'
  else if b = 0x6e then '\n'
  else if b = 0x72 then '\r'
  else if b = 0x74 then '\t'
  else Char.ofNat b.toNat

/-- The number of a unicode escape: the first four bytes, which must be text and a number in base
sixteen. A plus sign may lead. -/
def readUnit : List UInt8 → Except LexError (Nat × List UInt8)
  | a :: b :: c :: d :: bs =>
    match Text.Utf8.decode? [a, b, c, d] with
    | none => .error .notUtf8
    | some cs =>
      match Number.readUnsigned 16 0x10000 cs with
      | .error _ => .error .malformed
      | .ok n => .ok (n, bs)
  | _ => .error (.endedIn .escape)

theorem readUnit_length {bs rest : List UInt8} {n : Nat} (h : readUnit bs = .ok (n, rest)) :
    rest.length < bs.length := by
  unfold readUnit at h
  split at h
  · split at h
    · simp at h
    · split at h
      · simp at h
      · cases h; simp only [List.length_cons]; omega
  · simp at h

def isHighSurrogate (n : Nat) : Bool := 0xd800 ≤ n && n < 0xdc00

def isLowSurrogate (n : Nat) : Bool := 0xdc00 ≤ n && n < 0xe000

/-- The code point that two surrogates stand for. -/
def joinSurrogates (high low : Nat) : Nat := 0x10000 + (high - 0xd800) * 0x400 + (low - 0xdc00)

/-- The second half of a surrogate pair: another escape right behind the first, a low surrogate. -/
def readLow : List UInt8 → Except LexError (Nat × List UInt8)
  | 0x5c :: 0x75 :: bs =>
    if bs.length < 4 then .error .notUtf8
    else match readUnit bs with
      | .error e => .error e
      | .ok (low, rest) => if isLowSurrogate low then .ok (low, rest) else .error .notUtf8
  | _ => .error .notUtf8

theorem readLow_length {bs rest : List UInt8} {n : Nat} (h : readLow bs = .ok (n, rest)) :
    rest.length < bs.length := by
  unfold readLow at h
  split at h
  · split at h
    · simp at h
    · split at h
      · simp at h
      · rename_i hu
        have hu := readUnit_length hu
        split at h
        · cases h; simp only [List.length_cons]; omega
        · simp at h
  · simp at h

/-- The character of a unicode escape, which may take a second one: a high surrogate needs a low
one right behind it, and a low one may not stand alone. -/
def readUnicode (bs : List UInt8) : Except LexError (Char × List UInt8) :=
  match readUnit bs with
  | .error e => .error e
  | .ok (n, rest) =>
    if isLowSurrogate n then .error .notUtf8
    else if isHighSurrogate n then
      match readLow rest with
      | .error e => .error e
      | .ok (low, rest) => .ok (Char.ofNat (joinSurrogates n low), rest)
    else .ok (Char.ofNat n, rest)

theorem readUnicode_length {bs rest : List UInt8} {c : Char}
    (h : readUnicode bs = .ok (c, rest)) : rest.length < bs.length := by
  unfold readUnicode at h
  split at h
  · simp at h
  · rename_i hu
    have hu := readUnit_length hu
    split at h
    · simp at h
    · split at h
      · split at h
        · simp at h
        · rename_i hl
          have hl := readLow_length hl
          obtain ⟨_, rfl⟩ := Prod.mk.injEq .. ▸ Except.ok.injEq .. ▸ h
          omega
      · obtain ⟨_, rfl⟩ := Prod.mk.injEq .. ▸ Except.ok.injEq .. ▸ h
        exact hu

def isBackslash (b : UInt8) : Bool := b = 0x5c

/-- Reads the inside of a string: each stretch up to a backslash must be text, and each escape
stands for one character. What was found is kept last first. -/
def unescapeFrom (found : List Char) (bs : List UInt8) : Except LexError (List Char) :=
  match bs with
  | [] => .ok found.reverse
  | b :: bs =>
    if isBackslash b then
      match bs with
      | [] => .error (.endedIn .escape)
      | c :: bs =>
        if c = 0x75 then
          match _h : readUnicode bs with
          | .error e => .error e
          | .ok (x, rest) => unescapeFrom (x :: found) rest
        else unescapeFrom (unescapeByte c :: found) bs
    else
      match Text.Utf8.decode? (b :: bs.takeWhile (!isBackslash ·)) with
      | none => .error .notUtf8
      | some cs => unescapeFrom (cs.reverse ++ found) (bs.dropWhile (!isBackslash ·))
termination_by bs.length
decreasing_by
  all_goals simp only [List.length_cons]
  · have := readUnicode_length _h; omega
  · omega
  · have := (List.dropWhile_sublist (l := bs) (!isBackslash ·)).length_le; omega

/-- The text of a string. Without a backslash the bytes are taken as they are. -/
def readString (body : List UInt8) (hasEscapes : Bool) : Except LexError String :=
  if hasEscapes then (unescapeFrom [] body).map String.ofList
  else match Text.Utf8.decode? body with
    | none => .error .notUtf8
    | some cs => .ok (String.ofList cs)

/-- The number that a run of digits spells. -/
def digitsValue (bs : List UInt8) : Nat := bs.foldl (fun n b => n * 10 + (b.toNat - 0x30)) 0

/-- The value of an exponent. Digits count as long as it is below `2 ^ 16`, since it is out of all
bounds after that. -/
def exponentValue (bs : List UInt8) : Nat :=
  bs.foldl (fun n b => if n < 1 <<< 16 then n * 10 + (b.toNat - 0x30) else n) 0

/-- A number with a fraction or an exponent. The mantissa needs a digit on one side of the point,
the exponent needs one too. -/
def readReal (text : List UInt8) : Except LexError Binary64 :=
  let (minus, bs) := spanMinus text
  let (whole, bs) := spanDigits bs
  let (fraction, bs) := spanFraction bs
  let places := fraction.drop 1
  if whole = [] ∧ places = [] then .error .malformed
  else
    let digits := digitsValue (whole ++ places)
    match bs with
    | [] => .ok (.ofDecimal (minus ≠ []) digits (-(places.length : Int)))
    | _ :: bs =>
      let (negative, bs) := match bs with
        | 0x2d :: bs => (true, bs)
        | 0x2b :: bs => (false, bs)
        | bs => (false, bs)
      if bs = [] then .error .malformed
      else
        let power : Int := if negative then -(exponentValue bs : Int) else exponentValue bs
        .ok (.ofDecimal (minus ≠ []) digits (power - places.length))

/-- A whole number without a sign, of 64 bits if it fits and of 128 otherwise. -/
def readWhole (text : List UInt8) : Except LexError Token :=
  let n := digitsValue text
  if n < UInt64.size then .ok (.unsigned n)
  else if n < 1 <<< 128 then .ok (.wideUnsigned n)
  else .error .malformed

/-- A whole number with a minus sign, of 64 bits if it fits and of 128 otherwise. -/
def readNegative (text : List UInt8) : Except LexError Token :=
  let n := digitsValue (text.drop 1)
  if n ≤ 1 <<< 63 then .ok (.signed (-n))
  else if n ≤ 1 <<< 127 then .ok (.wideSigned (-n))
  else .error .malformed

/-- Reads what stands inside the borders of a lexeme. -/
def Lexeme.token : Lexeme → Except LexError Token
  | .objectStart => .ok .objectStart
  | .objectEnd => .ok .objectEnd
  | .arrayStart => .ok .arrayStart
  | .arrayEnd => .ok .arrayEnd
  | .colon => .ok .colon
  | .comma => .ok .comma
  | .null => .ok .null
  | .bool b => .ok (.bool b)
  | .string _ _ body escapes => (readString body escapes).map .string
  | .number _ _ text .float => (readReal text).map .real
  | .number _ _ text .signed => readNegative text
  | .number _ _ text .unsigned => readWhole text

end LockTrace.Json
