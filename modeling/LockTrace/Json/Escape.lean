import LockTrace.Text.Quoted

namespace LockTrace.Json

/-- A character as it stands inside a JSON string. Controls without a letter of their own get four
hexadecimal digits, and so does the delete character. -/
def escapeChar (c : Char) : List Char :=
  if c = '\"' then ['\\', '\"']
  else if c = '\\' then ['\\', '\\']
  else if c = '\n' then ['\\', 'n']
  else if c = '\r' then ['\\', 'r']
  else if c = '\t' then ['\\', 't']
  else if c = '\x08' then ['\\', 'b']
  else if c = '\x0c' then ['\\', 'f']
  else if c.toNat < 0x20 ∨ c.toNat = 0x7f then
    ['\\', 'u', '0', '0', Nat.digitChar (c.toNat / 16), Nat.digitChar (c.toNat % 16)]
  else [c]

/-- A character that a window may copy: one byte, no control below the space, no quote and no
backslash. The delete character is among them. -/
def isPlain (c : Char) : Bool := 0x20 ≤ c.toNat && c.toNat < 0x80 && c ≠ '\"' && c ≠ '\\'

/-- The width of a window in bytes. -/
def windowWidth : Nat := 16

/-- Whether a text has at least so many bytes. -/
def hasBytes : Nat → List Char → Bool
  | 0, _ => true
  | _ + 1, [] => false
  | n + 1, c :: cs => hasBytes (n + 1 - c.utf8Size) cs

/-- The shortest beginning of at least so many bytes, and what follows it. The last character may
cross the border. -/
def splitBytes : Nat → List Char → List Char × List Char
  | _, [] => ([], [])
  | 0, cs => ([], cs)
  | n + 1, c :: cs =>
    let (front, back) := splitBytes (n + 1 - c.utf8Size) cs
    (c :: front, back)

theorem length_of_hasBytes {n : Nat} {cs : List Char} (h : hasBytes (n + 1) cs = true) :
    0 < cs.length := by
  cases cs with
  | nil => simp [hasBytes] at h
  | cons c cs => simp

theorem splitBytes_append (n : Nat) (cs : List Char) :
    (splitBytes n cs).1 ++ (splitBytes n cs).2 = cs := by
  fun_induction splitBytes n cs <;> simp_all

theorem splitBytes_length (n : Nat) {cs : List Char} (h : 0 < cs.length) :
    (splitBytes (n + 1) cs).2.length < cs.length := by
  cases cs with
  | nil => simp at h
  | cons c cs =>
    have hs := congrArg List.length (splitBytes_append (n + 1 - c.utf8Size) cs)
    simp only [List.length_append] at hs
    simp only [splitBytes, List.length_cons]
    omega

/-- The inside of a JSON string. The writer goes through the text in windows: a window of plain
characters is copied, any other is escaped character by character, and so is a rest too short to
fill a window. -/
def escape (cs : List Char) : List Char :=
  if _h : hasBytes windowWidth cs = true then
    if (cs.take windowWidth).all isPlain then
      cs.take windowWidth ++ escape (cs.drop windowWidth)
    else
      (splitBytes windowWidth cs).1.flatMap escapeChar ++ escape (splitBytes windowWidth cs).2
  else cs.flatMap escapeChar
termination_by cs.length
decreasing_by
  · have hl : 0 < cs.length := length_of_hasBytes _h
    simp only [List.length_drop, windowWidth]
    omega
  · exact splitBytes_length 15 (length_of_hasBytes _h)

/-- A text as a JSON string. -/
def quote (s : String) : List Char := '\"' :: escape s.toList ++ ['\"']

end LockTrace.Json
