namespace LockTrace.Text.Utf8

/-- The bytes of a text. -/
def encode (cs : List Char) : List UInt8 := cs.flatMap String.utf8EncodeChar

/-- How many bytes the character has that starts with this byte. -/
def width (lead : UInt8) : Nat :=
  if lead < 0x80 then 1 else if lead < 0xe0 then 2 else if lead < 0xf0 then 3 else 4

/-- The number that a lead byte and the bytes behind it spell, whether or not they may. -/
def codePoint (lead : UInt8) (tail : List UInt8) : Nat :=
  let head := match tail.length with
    | 0 => lead.toNat
    | 1 => lead.toNat % 32
    | 2 => lead.toNat % 16
    | _ => lead.toNat % 8
  tail.foldl (fun acc b => acc * 64 + b.toNat % 64) head

/-- The first character and the bytes behind it. A spelling counts only if it is the one that
`encode` gives, so overlong forms, surrogates and stray bytes are refused. -/
def decodeChar? : List UInt8 → Option (Char × List UInt8)
  | [] => none
  | lead :: rest =>
    let tail := rest.take (width lead - 1)
    let c := Char.ofNat (codePoint lead tail)
    if String.utf8EncodeChar c = lead :: tail then some (c, rest.drop (width lead - 1)) else none

theorem decodeChar?_length {bs rest : List UInt8} {c : Char}
    (h : decodeChar? bs = some (c, rest)) : rest.length < bs.length := by
  cases bs with
  | nil => simp [decodeChar?] at h
  | cons lead tail =>
    simp only [decodeChar?] at h
    split at h
    · obtain ⟨_, rfl⟩ := Prod.mk.injEq .. ▸ Option.some.injEq .. ▸ h
      simp only [List.length_drop, List.length_cons]
      omega
    · simp at h

/-- Reads on from the characters already found, kept last first. -/
def decodeFrom (found : List Char) (bs : List UInt8) : Option (List Char) :=
  if bs.isEmpty then some found.reverse
  else match _h : decodeChar? bs with
    | none => none
    | some (c, rest) => decodeFrom (c :: found) rest
termination_by bs.length
decreasing_by exact decodeChar?_length _h

/-- The text that the bytes spell, if they spell one. -/
def decode? (bs : List UInt8) : Option (List Char) := decodeFrom [] bs

end LockTrace.Text.Utf8
