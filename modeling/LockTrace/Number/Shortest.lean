import LockTrace.Number.Binary64

namespace LockTrace.Number

/-- A decimal `0.d₁d₂… * 10 ^ point`: the digits and the place of the point. -/
structure Decimal where
  digits : List Char
  point : Int
  deriving DecidableEq, Repr

namespace Binary64

/-- The reals that round to `m * 2 ^ e`, as bounds in units of `2 ^ (e - 2)`. Below a power of two
the neighbours stand closer, except at the least exponent. -/
def interval (m : Nat) (e : Int) : Nat × Nat :=
  (if m = 1 <<< 52 ∧ e ≠ leastExponent then 4 * m - 1 else 4 * m - 2, 4 * m + 2)

/-- Whether `c * 10 ^ g` reads back as `m * 2 ^ e`. The ends of the interval belong to even
mantissas. -/
def readsBack (m : Nat) (e g : Int) (c : Nat) : Bool :=
  let (low, high) := interval m e
  let (ten, tenth) := scaled 1 10 g
  let (two, half) := scaled 1 2 (e - 2)
  let here := c * ten * half
  let below := low * two * tenth
  let above := high * two * tenth
  if m % 2 = 0 then below ≤ here && here ≤ above else below < here && here < above

/-- The point of the grid `10 ^ g` that reads back and is nearest to the number, if any does. The
upper one wins a tie. -/
def onGrid? (m : Nat) (e g : Int) : Option Nat :=
  let (two, half) := scaled m 2 e
  let (tenth, ten) := scaled 1 10 (-g)
  let num := two * tenth
  let den := half * ten
  let c := num / den
  let lower := readsBack m e g c
  let upper := readsBack m e g (c + 1)
  if lower && upper then some (if 2 * (num % den) < den then c else c + 1)
  else if lower then some c
  else if upper then some (c + 1)
  else none

/-- The place of the point of a positive number: the least `p` with the number below `10 ^ p`. -/
def pointPlace (m : Nat) (e : Int) : Int :=
  let (num, den) := scaled m 2 e
  if den ≤ num then ((Nat.toDigits 10 (num / den)).length : Int)
  else
    let zeros := (Nat.toDigits 10 ((den - 1) / num)).length
    1 - (zeros : Int)

/-- The first grid with a hit, from one digit on; seventeen digits always do. -/
def shortestFrom (m : Nat) (e p : Int) : Nat → Nat → Nat × Int
  | 0, n => ((onGrid? m e (p - n)).getD 0, p - n)
  | fuel + 1, n =>
    match onGrid? m e (p - n) with
    | some c => (c, p - n)
    | none => shortestFrom m e p fuel (n + 1)

/-- The fewest digits that read back as `m * 2 ^ e`, and of those the nearest. -/
def shortest (m : Nat) (e : Int) : Decimal :=
  let (c, g) := shortestFrom m e (pointPlace m e) 16 1
  let ds := Nat.toDigits 10 c
  let kept := (ds.reverse.dropWhile (· = '0')).reverse
  ⟨kept, g + ds.length⟩

end Binary64

end LockTrace.Number
