namespace LockTrace.Number

/-- Why a text is no number of the wanted range. -/
inductive ReadError
  | empty
  | badDigit
  | tooLarge
  deriving DecidableEq, Repr

def ReadError.message : ReadError → String
  | .empty => "cannot parse integer from empty string"
  | .badDigit => "invalid digit found in string"
  | .tooLarge => "number too large to fit in target type"

/-- The value of a digit below the base, in either case of letters. -/
def digit? (base : Nat) (c : Char) : Option Nat :=
  let v := if '0' ≤ c ∧ c ≤ '9' then c.toNat - '0'.toNat
    else if 'a' ≤ c ∧ c ≤ 'z' then c.toNat - 'a'.toNat + 10
    else if 'A' ≤ c ∧ c ≤ 'Z' then c.toNat - 'A'.toNat + 10
    else base
  if v < base then some v else none

/-- Reads digits from left to right, so the leftmost fault is the one reported. -/
def readDigits (base limit : Nat) : Nat → List Char → Except ReadError Nat
  | acc, [] => .ok acc
  | acc, c :: cs =>
    match digit? base c with
    | none => .error .badDigit
    | some d =>
      if acc * base + d < limit then readDigits base limit (acc * base + d) cs
      else .error .tooLarge

/-- An unsigned number below the limit. One plus sign may lead, but not alone. -/
def readUnsigned (base limit : Nat) : List Char → Except ReadError Nat
  | [] => .error .empty
  | ['+'] => .error .badDigit
  | '+' :: cs => readDigits base limit 0 cs
  | cs => readDigits base limit 0 cs

/-- A decimal number of sixty-four bits. -/
def readWord (s : String) : Except ReadError UInt64 :=
  (readUnsigned 10 UInt64.size s.toList).map UInt64.ofNat

end LockTrace.Number
