import LockTrace.Number.Shortest

namespace LockTrace.Number

/-- Digits with the point in its place and no exponent, however long that is. A whole number gets
the given ending. -/
def Decimal.positional (d : Decimal) (wholeEnding : List Char) : List Char :=
  let n := d.digits.length
  if d.point ≤ 0 then '0' :: '.' :: List.replicate (-d.point).toNat '0' ++ d.digits
  else if n ≤ d.point.toNat then
    d.digits ++ List.replicate (d.point.toNat - n) '0' ++ wholeEnding
  else d.digits.take d.point.toNat ++ '.' :: d.digits.drop d.point.toNat

/-- One digit, the others behind a point, and the power of ten. -/
def Decimal.scientific (d : Decimal) : List Char :=
  let fraction := match d.digits.drop 1 with
    | [] => []
    | rest => '.' :: rest
  d.digits.take 1 ++ fraction ++ 'e' :: (toString (d.point - 1)).toList

namespace Binary64

def sign (negative : Bool) : List Char := if negative then ['-'] else []

/-- The plain text of a number: shortest digits, never an exponent, no fraction where none is. -/
def text : Binary64 → String
  | .infinite negative => String.ofList (sign negative ++ ['i', 'n', 'f'])
  | .finite negative m e =>
    String.ofList (sign negative ++ if m = 0 then ['0'] else (shortest m e).positional [])

/-- The text of a number as a value of its type: a whole number keeps one zero behind the point,
and from `10 ^ 16` on and below `10 ^ -4` a power of ten is split off. -/
def typedText : Binary64 → String
  | .infinite negative => String.ofList (sign negative ++ ['i', 'n', 'f'])
  | .finite negative m e =>
    let body :=
      if m = 0 then ['0', '.', '0']
      else
        let d := shortest m e
        if 16 < d.point ∨ d.point < -3 then d.scientific else d.positional ['.', '0']
    String.ofList (sign negative ++ body)

end Binary64

end LockTrace.Number
