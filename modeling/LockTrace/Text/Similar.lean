namespace LockTrace.Text

/-- Marks the first place of a text where a character stands that is not marked yet, among the
places from `low` up to but not including `high`. -/
def markFirst (c : Char) (low high : Nat) : Nat → List (Char × Bool) → Option (List (Char × Bool))
  | _, [] => none
  | i, (d, marked) :: rest =>
    if low ≤ i ∧ i < high ∧ ¬ marked ∧ c = d then some ((d, true) :: rest)
    else (markFirst c low high (i + 1) rest).map ((d, marked) :: ·)

/-- Pairs each character of one text with an equal one of the other that is at most `reach` places
away, if one is left. Gives the characters that found a partner, and the other text with its
partners marked. -/
def pairUp (reach : Nat) :
    Nat → List Char → List (Char × Bool) → List Char × List (Char × Bool)
  | _, [], ys => ([], ys)
  | i, c :: cs, ys =>
    match markFirst c (i - reach) (i + reach + 1) 0 ys with
    | none => pairUp reach (i + 1) cs ys
    | some ys =>
      let (found, ys) := pairUp reach (i + 1) cs ys
      (c :: found, ys)

/-- The mean of three shares: the paired characters in either text, and the pairs that stand in the
same order in both. -/
def likeness (a b : List Char) : Float :=
  let reach := max a.length b.length / 2 - 1
  let (found, marked) := pairUp reach 0 a (b.map (·, false))
  let partners := (marked.filter (·.2)).map (·.1)
  let m := found.length
  let crossed := ((found.zip partners).filter fun (c, d) => c ≠ d).length / 2
  let share (part whole : Nat) : Float := Float.ofNat part / Float.ofNat whole
  if a.isEmpty ∧ b.isEmpty then 1
  else if m = 0 then 0
  else (share m a.length + share m b.length + share (m - crossed) m) / 3

/-- The likeness of two texts, raised for texts that are alike already by up to four tenths of what
is missing: one tenth for each of the first four characters that they share. -/
def similarity (a b : List Char) : Float :=
  let s := likeness a b
  if 0.7 < s then
    let common := (((a.take 4).zip b).takeWhile fun (c, d) => c = d).length
    s + 0.1 * Float.ofNat common * (1 - s)
  else s

/-- The lower case of a character, as far as a comparison with ASCII letters can tell: outside of
ASCII only the dotted capital I and the Kelvin sign have a lower case with such a letter. -/
def lowerCase (c : Char) : List Char :=
  if c = '\u0130' then ['i', '\u0307']
  else if c = '\u212a' then ['k']
  else [c.toLower]

/-- The candidate most like a text, if it is alike by four fifths at least. The case of letters
does not count, and among equals the last candidate does. -/
def closest? (text : String) (candidates : List String) : Option String :=
  let folded (s : String) : List Char := s.toList.flatMap lowerCase
  let best := candidates.foldl (fun best c =>
    let s := similarity (folded text) (folded c)
    match best with
    | none => some (s, c)
    | some (t, _) => if t ≤ s then some (s, c) else best) none
  (best.filter fun (s, _) => 0.8 ≤ s).map (·.2)

end LockTrace.Text
