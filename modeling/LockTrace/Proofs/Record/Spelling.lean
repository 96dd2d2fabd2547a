import LockTrace.Proofs.Json.Grammar
import LockTrace.Record.Line

/-!
# How a record is spelled

The writer copies whole windows of plain characters and escapes the others one by one. Of that
nothing shows: every character is written by itself, in order, in the way that it would be anywhere
else, but for the delete character, which a window copies. A record is always one object of the
strict grammar.
-/

namespace LockTrace.Json

/-- How a character may be written inside of a string: by a letter behind a backslash, by its
number, or as it is. Only the delete character can be written in two ways. -/
inductive Written : Char → List Char → Prop
  | short {c d : Char} (h : (c, d) ∈ shortEscapes) : Written c ['\\', d]
  | number {c : Char} (hc : c.toNat < 0x20) (hs : ∀ d, (c, d) ∉ shortEscapes) :
      Written c ['\\', 'u', '0', '0', Nat.digitChar (c.toNat / 16), Nat.digitChar (c.toNat % 16)]
  | raw {c : Char} (hc : 0x20 ≤ c.toNat) (hq : c ≠ '\"') (hb : c ≠ '\\') : Written c [c]
  | delete : Written '\x7f' ['\\', 'u', '0', '0', '7', 'f']

theorem written_escapeChar (c : Char) : Written c (escapeChar c) := by
  unfold escapeChar
  split_ifs with h1 h2 h3 h4 h5 h6 h7 h8
  · subst h1
    exact .short (by simp [shortEscapes])
  · subst h2
    exact .short (by simp [shortEscapes])
  · subst h3
    exact .short (by simp [shortEscapes])
  · subst h4
    exact .short (by simp [shortEscapes])
  · subst h5
    exact .short (by simp [shortEscapes])
  · subst h6
    exact .short (by simp [shortEscapes])
  · subst h7
    exact .short (by simp [shortEscapes])
  · rcases h8 with hc | hc
    · apply Written.number hc
      intro d hd
      simp [shortEscapes, h1, h2, h3, h4, h5, h6, h7] at hd
    · obtain rfl : c = '\x7f' := Char.toNat_inj.mp hc
      exact .delete
  · exact .raw (by omega) h1 h2

/-- Away from the delete character there is one way to write a character. -/
theorem Written.eq_escapeChar {c : Char} {ws : List Char} (h : Written c ws) (hc : c ≠ '\x7f') :
    ws = escapeChar c := by
  cases h with
  | short h =>
    simp only [shortEscapes, List.mem_cons, Prod.mk.injEq, List.not_mem_nil, or_false] at h
    rcases h with ⟨rfl, rfl⟩ | ⟨rfl, rfl⟩ | ⟨rfl, rfl⟩ | ⟨rfl, rfl⟩ | ⟨rfl, rfl⟩ | ⟨rfl, rfl⟩ |
      ⟨rfl, rfl⟩ <;> rfl
  | number hn hs =>
    have named (p : Char × Char) (hp : p ∈ shortEscapes) : c ≠ p.1 := by
      rintro rfl
      exact hs p.2 hp
    simp only [shortEscapes, List.forall_mem_cons] at named
    obtain ⟨h1, h2, h3, h4, h5, h6, h7, -⟩ := named
    rw [escapeChar, if_neg h1, if_neg h2, if_neg h3, if_neg h4, if_neg h5, if_neg h6, if_neg h7,
      if_pos (.inl hn)]
  | raw hl hq hb =>
    have control (k : Char) (hk : k.toNat < 0x20) : c ≠ k := by
      rintro rfl
      omega
    have hd : ¬ (c.toNat < 0x20 ∨ c.toNat = 0x7f) := by
      rintro (hn | hn)
      · omega
      · exact hc (Char.toNat_inj.mp hn)
    rw [escapeChar, if_neg hq, if_neg hb, if_neg (control _ (by decide)),
      if_neg (control _ (by decide)), if_neg (control _ (by decide)),
      if_neg (control _ (by decide)), if_neg (control _ (by decide)), if_neg hd]
  | delete => contradiction

theorem flatten_written {cs : List Char} {parts : List (List Char)}
    (h : List.Forall₂ Written cs parts) (hc : '\x7f' ∉ cs) :
    parts.flatten = cs.flatMap escapeChar := by
  induction h with
  | nil => rfl
  | cons hw _ ih =>
    simp only [List.mem_cons, not_or] at hc
    rw [List.flatten_cons, List.flatMap_cons, hw.eq_escapeChar (Ne.symm hc.1), ih hc.2]

/-- A text and its characters as they are written, in the same order. -/
theorem Spelled.exists_written {cs ws : List Char} (h : Spelled cs ws) :
    ∃ parts, List.Forall₂ Written cs parts ∧ ws = parts.flatten := by
  induction h with
  | nil => exact ⟨[], .nil, rfl⟩
  | escaped c h ih =>
    obtain ⟨parts, hparts, rfl⟩ := ih
    exact ⟨escapeChar c :: parts, .cons (written_escapeChar c) hparts, rfl⟩
  | copied hc h ih =>
    obtain ⟨parts, hparts, rfl⟩ := ih
    obtain ⟨hl, -, hq, hb⟩ := isPlain_iff.mp hc
    exact ⟨[_] :: parts, .cons (.raw hl hq hb) hparts, rfl⟩

/-- However a text falls into windows, it is written character by character. -/
theorem exists_written (cs : List Char) : ∃ parts, List.Forall₂ Written cs parts ∧
    escape cs = parts.flatten ∧ ('\x7f' ∉ cs → escape cs = cs.flatMap escapeChar) := by
  obtain ⟨parts, hparts, he⟩ := (spelled_escape cs).exists_written
  refine ⟨parts, hparts, he, ?_⟩
  intro hc
  rw [he, flatten_written hparts hc]

theorem shortEscapes_letters : ∀ p ∈ shortEscapes, (p.2, p.1) ∈ letters := by
  decide

theorem digit?_digitChar : ∀ n < 16, Number.digit? 16 (Nat.digitChar n) = some n := by
  decide

theorem surrogate_of_lt {n : Nat} (h : n < 0x80) :
    isHighSurrogate n = false ∧ isLowSurrogate n = false := by
  constructor
  · simp [isHighSurrogate]
    omega
  · simp [isLowSurrogate]
    omega

/-- A character by its number. -/
theorem chars_number {c : Char} (hc : c.toNat < 0x80) {ws cs : List Char} (h : Chars ws cs) :
    Chars ('\\' :: 'u' :: '0' :: '0' :: Nat.digitChar (c.toNat / 16) ::
      Nat.digitChar (c.toNat % 16) :: ws) (c :: cs) := by
  have hq :
      Quad ['0', '0', Nat.digitChar (c.toNat / 16), Nat.digitChar (c.toNat % 16)] c.toNat := by
    have hz : Number.digit? 16 '0' = some 0 := rfl
    have hd := Quad.digits hz hz (digit?_digitChar (c.toNat / 16) (by omega))
      (digit?_digitChar (c.toNat % 16) (by omega))
    have hn : ((0 * 16 + 0) * 16 + c.toNat / 16) * 16 + c.toNat % 16 = c.toNat := by omega
    rwa [hn] at hd
  obtain ⟨hh, hl⟩ := surrogate_of_lt hc
  have hu := Chars.unicode hq hh hl h
  rwa [Char.ofNat_toNat] at hu

/-- What is written is the inside of a string of the strict grammar, and it stands for the text. -/
theorem chars_written {cs : List Char} {parts : List (List Char)}
    (h : List.Forall₂ Written cs parts) : Chars parts.flatten cs := by
  induction h with
  | nil => exact .nil
  | cons hw _ ih =>
    rw [List.flatten_cons]
    cases hw with
    | short hs => exact .letter (shortEscapes_letters _ hs) ih
    | number hc hs => exact chars_number (by omega) ih
    | raw hc hq hb => exact .raw hc hq hb ih
    | delete => exact chars_number (c := '\x7f') (by decide) ih

end LockTrace.Json

namespace LockTrace.Record

open Json (Blanks Phrase Value Written escape escapeChar exists_written)

/-- The names of kinds are written as they are. -/
theorem escape_name (k : Kind) : escape k.name.toList = k.name.toList := by
  obtain ⟨parts, -, -, he⟩ := exists_written k.name.toList
  have hd : '\x7f' ∉ k.name.toList := by
    cases k <;> decide
  rw [he hd]
  cases k <;> decide

theorem blanks_nil : Blanks [] := by simp [Blanks]

/-- A member without blanks. -/
theorem member_text (key : String) (hk : key.toList.all Json.isPlain = true) {v : Value}
    {ws : List Char} (h : (Phrase.value v).Text ws) :
    (Phrase.member key v).Text ('\"' :: (key.toList ++ '\"' :: ':' :: ws)) := by
  have hitem := Phrase.Text.item blanks_nil h blanks_nil
  have hmember := Phrase.Text.member blanks_nil (Json.chars_plain hk) blanks_nil hitem
  simpa using hmember

/-- What the four members of a record stand for. -/
def object (e : Event) : Value := .object [("type", .text e.kind.name),
  ("time", .count e.time.count.toNat), ("tid", .text e.tid), ("lock", .text e.lock.text)]

theorem text_escape (s : String) :
    (Phrase.value (.text s)).Text ('\"' :: (escape s.toList ++ ['\"'])) := by
  obtain ⟨parts, hparts, he, -⟩ := exists_written s.toList
  have ht := Phrase.Text.text (Json.chars_written hparts)
  rwa [String.ofList_toList, ← he] at ht

/-- A record is one object of the strict grammar. -/
theorem text_body (e : Event) : (Phrase.value (object e)).Text (body e) := by
  have kind := member_text "type" (by decide) (text_escape e.kind.name)
  have time := member_text "time" (by decide) (.count e.time.count.toNat)
  have tid := member_text "tid" (by decide) (text_escape e.tid)
  have lock := member_text "lock" (by decide) (text_escape e.lock.text)
  have hobject := Phrase.Text.object (.moreMembers (List.cons_ne_nil _ _) kind
    (.moreMembers (List.cons_ne_nil _ _) time (.moreMembers (List.cons_ne_nil _ _) tid
      (.lastMember lock))))
  have hbody : body e = '\x7b' :: (('\"' :: ("type".toList ++ '\"' :: ':' :: '\"' ::
      (escape e.kind.name.toList ++ ['\"'])) ++ ',' :: ('\"' :: ("time".toList ++ '\"' :: ':' ::
      Nat.toDigits 10 e.time.count.toNat) ++ ',' :: ('\"' :: ("tid".toList ++ '\"' :: ':' :: '\"' ::
      (escape e.tid.toList ++ ['\"'])) ++ ',' :: '\"' :: ("lock".toList ++ '\"' :: ':' :: '\"' ::
      (escape e.lock.text.toList ++ ['\"']))))) ++ ['\x7d']) := by
    unfold body Json.quote
    generalize escape e.kind.name.toList = kind
    generalize escape e.tid.toList = tid
    generalize escape e.lock.text.toList = lock
    generalize Nat.toDigits 10 e.time.count.toNat = time
    simp
  rw [hbody]
  exact hobject

/-- Without delete characters it makes no difference whether a text is written in windows or
character by character. A record is one line, with its four members in order, in which every
character of a name stands as it may be written, and the line is an object of the strict grammar
that stands for the record. -/
theorem encode_written :
    (∀ cs, '\x7f' ∉ cs → escape cs = cs.flatMap escapeChar) ∧
    ∀ e, ∃ text tid lock, encode e = String.ofList text ++ "\n" ∧
      text = "\x7b\"type\":\"".toList ++ e.kind.name.toList ++ "\",\"time\":".toList ++
        Nat.toDigits 10 e.time.count.toNat ++ ",\"tid\":\"".toList ++ escape e.tid.toList ++
        "\",\"lock\":\"".toList ++ escape e.lock.text.toList ++ "\"\x7d".toList ∧
      escape e.tid.toList = tid.flatten ∧ List.Forall₂ Written e.tid.toList tid ∧
      escape e.lock.text.toList = lock.flatten ∧ List.Forall₂ Written e.lock.text.toList lock ∧
      (Phrase.value (.object [("type", .text e.kind.name), ("time", .count e.time.count.toNat),
        ("tid", .text e.tid), ("lock", .text e.lock.text)])).Text text := by
  constructor
  · intro cs hc
    obtain ⟨parts, -, -, he⟩ := exists_written cs
    exact he hc
  · intro e
    obtain ⟨tid, htid, hetid, -⟩ := exists_written e.tid.toList
    obtain ⟨lock, hlock, helock, -⟩ := exists_written e.lock.text.toList
    refine ⟨body e, tid, lock, ?_, ?_, hetid, htid, helock, hlock, text_body e⟩
    · rw [encode, String.ofList_append]
    · unfold body Json.quote
      rw [escape_name]
      generalize escape e.tid.toList = tid
      generalize escape e.lock.text.toList = lock
      generalize Nat.toDigits 10 e.time.count.toNat = time
      simp

end LockTrace.Record
