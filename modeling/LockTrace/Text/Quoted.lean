import LockTrace.Text.Printable

namespace LockTrace.Text

/-- The digits of a number in base sixteen, lower case. -/
def hexDigits (n : Nat) : List Char := Nat.toDigits 16 n

/-- A character as it stands inside quotes: the quote itself and the backslash take a backslash,
four controls have letters, and whatever cannot stand by itself is shown by its code point. -/
def quoteChar (quote c : Char) : List Char :=
  if c = '\x00' then ['\\', '0']
  else if c = '\t' then ['\\', 't']
  else if c = '\r' then ['\\', 'r']
  else if c = '\n' then ['\\', 'n']
  else if c = '\\' then ['\\', '\\']
  else if c = quote then ['\\', quote]
  else if isPrintable c then [c]
  else ['\\', 'u', '\x7b'] ++ hexDigits c.toNat ++ ['\x7d']

/-- A text between double quotes. -/
def quoted (s : String) : String :=
  String.ofList ('\"' :: s.toList.flatMap (quoteChar '\"') ++ ['\"'])

/-- A single character between single quotes. -/
def quotedChar (c : Char) : String :=
  String.ofList ('\'' :: quoteChar '\'' c ++ ['\''])

end LockTrace.Text
