namespace LockTrace.Number

/-- A number of the binary64 format: a sign and either infinity or `mantissa * 2 ^ exponent`.
The mantissa has fifty-three bits, or fewer at the least exponent, which is -1074. -/
inductive Binary64
  | finite (negative : Bool) (mantissa : Nat) (exponent : Int)
  | infinite (negative : Bool)
  deriving DecidableEq, Repr

/-- The nearest integer to a quotient; a half goes to the even neighbour. -/
def roundHalfEven (num den : Nat) : Nat :=
  let q := num / den
  let r := num % den
  if 2 * r < den then q
  else if 2 * r = den then q + q % 2
  else q + 1

/-- The fraction `n * base ^ e` as numerator and denominator. -/
def scaled (n base : Nat) (e : Int) : Nat × Nat :=
  if 0 ≤ e then (n * Nat.pow base e.toNat, 1) else (n, Nat.pow base (-e).toNat)

namespace Binary64

def leastExponent : Int := -1074

/-- The largest exponent of a finite number. -/
def greatestExponent : Int := 971

/-- Rounds a positive fraction at the given exponent; a carry out of the mantissa moves it up. -/
def roundAt (negative : Bool) (num den : Nat) (e : Int) : Binary64 :=
  let (up, down) := scaled 1 2 (-e)
  let m := roundHalfEven (num * up) (den * down)
  let (m, e) := if m = 1 <<< 53 then (1 <<< 52, e + 1) else (m, e)
  if e > greatestExponent then .infinite negative else .finite negative m e

/-- The number nearest to a fraction, an even mantissa winning a tie. -/
def ofFraction (negative : Bool) (num den : Nat) : Binary64 :=
  let guess : Int := (num.log2 : Int) - (den.log2 : Int) - 52
  let (up, down) := scaled 1 2 (-guess)
  let e := if num * up < (1 <<< 52) * (den * down) then guess - 1 else guess
  roundAt negative num den (max e leastExponent)

/-- The number nearest to `digits * 10 ^ exponent`. Magnitudes far outside the format are settled
by the place of the leading digit, so that no huge power is ever formed. -/
def ofDecimal (negative : Bool) (digits : Nat) (exponent : Int) : Binary64 :=
  if digits = 0 then .finite negative 0 leastExponent
  else
    let place : Int := (Nat.toDigits 10 digits).length + exponent
    if place > 320 then .infinite negative
    else if place < -340 then .finite negative 0 leastExponent
    else
      let (num, den) := scaled digits 10 exponent
      ofFraction negative num den

end Binary64

end LockTrace.Number
