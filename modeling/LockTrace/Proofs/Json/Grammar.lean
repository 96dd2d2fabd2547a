import LockTrace.Proofs.Json.Digits
import LockTrace.Proofs.Json.Strings

/-!
# JSON texts

The grammar of RFC 8259 over characters, and beside it what a text of the grammar stands for. A
number is an integer in decimal, with or without a minus sign, or it has a fraction or an
exponent; of the latter and of the three literals the value is not kept.
-/

namespace LockTrace.Json

/-- White space. -/
def Blanks (ws : List Char) : Prop := ∀ c ∈ ws, c = ' ' ∨ c = '\t' ∨ c = '\n' ∨ c = '\r'

/-- The letters that may follow a backslash, each with the character it stands for. -/
def letters : List (Char × Char) := [('\"', '\"'), ('\\', '\\'), ('/', '/'), ('b', '\x08'),
  ('f', '\x0c'), ('n', '\n'), ('r', '\r'), ('t', '\t')]

/-- Four hexadecimal digits, large or small, and the number they spell. -/
inductive Quad : List Char → Nat → Prop
  | digits {a b c d : Char} {i j k l : Nat} (ha : Number.digit? 16 a = some i)
      (hb : Number.digit? 16 b = some j) (hc : Number.digit? 16 c = some k)
      (hd : Number.digit? 16 d = some l) :
      Quad [a, b, c, d] (((i * 16 + j) * 16 + k) * 16 + l)

/-- The inside of a string and the text it stands for: characters as they are, letters behind a
backslash, and code units in hexadecimal, of which surrogates come in pairs. -/
inductive Chars : List Char → List Char → Prop
  | nil : Chars [] []
  | raw {ws cs : List Char} {c : Char} (hc : 0x20 ≤ c.toNat) (hq : c ≠ '\"') (hb : c ≠ '\\')
      (h : Chars ws cs) : Chars (c :: ws) (c :: cs)
  | letter {ws cs : List Char} {k c : Char} (hk : (k, c) ∈ letters) (h : Chars ws cs) :
      Chars ('\\' :: k :: ws) (c :: cs)
  | unicode {ws cs q : List Char} {n : Nat} (hq : Quad q n) (hh : isHighSurrogate n = false)
      (hl : isLowSurrogate n = false) (h : Chars ws cs) :
      Chars ('\\' :: 'u' :: (q ++ ws)) (Char.ofNat n :: cs)
  | pair {ws cs p q : List Char} {high low : Nat} (hp : Quad p high) (hq : Quad q low)
      (hh : isHighSurrogate high = true) (hl : isLowSurrogate low = true) (h : Chars ws cs) :
      Chars ('\\' :: 'u' :: (p ++ '\\' :: 'u' :: (q ++ ws)))
        (Char.ofNat (joinSurrogates high low) :: cs)

/-- An optional point with digits behind it. -/
inductive Fraction : List Char → Prop
  | none : Fraction []
  | point {ds : List Char} (h : Digits ds) : Fraction ('.' :: ds)

/-- An optional power of ten. -/
inductive Exponent : List Char → Prop
  | none : Exponent []
  | power {e : Char} {sign ds : List Char} (he : e = 'e' ∨ e = 'E')
      (hs : sign = [] ∨ sign = ['+'] ∨ sign = ['-']) (h : Digits ds) : Exponent (e :: (sign ++ ds))

def literals : List (List Char) :=
  [['n', 'u', 'l', 'l'], ['t', 'r', 'u', 'e'], ['f', 'a', 'l', 's', 'e']]

/-- What a text stands for. A number without fraction and exponent is a `count`, or `negative` if
it has a minus sign; `plain` are the other numbers and the literals. -/
inductive Value
  | plain
  | text (s : String)
  | count (n : Nat)
  | negative (n : Nat)
  | array (items : List Value)
  | object (members : List (String × Value))

/-- The parts of speech of the grammar. An item is a value with blanks around it. -/
inductive Phrase
  | value (v : Value)
  | item (v : Value)
  | items (vs : List Value)
  | member (key : String) (v : Value)
  | members (ms : List (String × Value))

/-- The texts of a phrase. -/
inductive Phrase.Text : Phrase → List Char → Prop
  | literal {ws : List Char} (h : ws ∈ literals) : Text (.value .plain) ws
  | text {ws cs : List Char} (h : Chars ws cs) :
      Text (.value (.text (String.ofList cs))) ('\"' :: (ws ++ ['\"']))
  | count (n : Nat) : Text (.value (.count n)) (Nat.toDigits 10 n)
  | negative (n : Nat) : Text (.value (.negative n)) ('-' :: Nat.toDigits 10 n)
  | real {minus fraction exponent : List Char} (n : Nat) (hm : minus = [] ∨ minus = ['-'])
      (hf : Fraction fraction) (he : Exponent exponent) (hr : fraction ≠ [] ∨ exponent ≠ []) :
      Text (.value .plain) (minus ++ Nat.toDigits 10 n ++ fraction ++ exponent)
  | array {vs : List Value} {ws : List Char} (h : Text (.items vs) ws) :
      Text (.value (.array vs)) ('[' :: (ws ++ [']']))
  | object {ms : List (String × Value)} {ws : List Char} (h : Text (.members ms) ws) :
      Text (.value (.object ms)) ('\x7b' :: (ws ++ ['\x7d']))
  | item {v : Value} {as ws bs : List Char} (ha : Blanks as) (h : Text (.value v) ws)
      (hb : Blanks bs) : Text (.item v) (as ++ ws ++ bs)
  | noItems {bs : List Char} (hb : Blanks bs) : Text (.items []) bs
  | lastItem {v : Value} {ws : List Char} (h : Text (.item v) ws) : Text (.items [v]) ws
  | moreItems {v : Value} {vs : List Value} {ws ws' : List Char} (hvs : vs ≠ [])
      (h : Text (.item v) ws) (t : Text (.items vs) ws') :
      Text (.items (v :: vs)) (ws ++ ',' :: ws')
  | member {v : Value} {as ks cs bs ws : List Char} (ha : Blanks as) (hk : Chars ks cs)
      (hb : Blanks bs) (h : Text (.item v) ws) :
      Text (.member (String.ofList cs) v) (as ++ '\"' :: (ks ++ '\"' :: (bs ++ ':' :: ws)))
  | noMembers {bs : List Char} (hb : Blanks bs) : Text (.members []) bs
  | lastMember {k : String} {v : Value} {ws : List Char} (h : Text (.member k v) ws) :
      Text (.members [(k, v)]) ws
  | moreMembers {k : String} {v : Value} {ms : List (String × Value)} {ws ws' : List Char}
      (hms : ms ≠ []) (h : Text (.member k v) ws) (t : Text (.members ms) ws') :
      Text (.members ((k, v) :: ms)) (ws ++ ',' :: ws')

/-- Every integer in the value is one of 128 bits, with a sign or without. -/
inductive Value.Bounded : Value → Prop
  | plain : Bounded .plain
  | text (s : String) : Bounded (.text s)
  | count {n : Nat} (h : n < 1 <<< 128) : Bounded (.count n)
  | negative {n : Nat} (h : n ≤ 1 <<< 127) : Bounded (.negative n)
  | array {vs : List Value} (h : ∀ v ∈ vs, v.Bounded) : Bounded (.array vs)
  | object {ms : List (String × Value)} (h : ∀ m ∈ ms, m.2.Bounded) : Bounded (.object ms)

theorem digit?_bounds {c : Char} {i : Nat} (h : Number.digit? 16 c = some i) :
    i < 16 ∧ c.toNat < 0x80 ∧ c ≠ '+' := by
  refine ⟨?_, ?_, ?_⟩
  · simp only [Number.digit?, Option.ite_none_right_eq_some, Option.some.injEq] at h
    exact h.2 ▸ h.1
  · have le (a b : Char) : a ≤ b ↔ a.toNat ≤ b.toNat := Char.le_def.trans UInt32.le_iff_toNat_le
    have numbers : '9'.toNat = 57 ∧ 'z'.toNat = 122 ∧ 'Z'.toNat = 90 := by decide
    by_contra hc
    have h9 : ¬ ('0' ≤ c ∧ c ≤ '9') := by rw [le, le]; omega
    have hz : ¬ ('a' ≤ c ∧ c ≤ 'z') := by rw [le, le]; omega
    have hZ : ¬ ('A' ≤ c ∧ c ≤ 'Z') := by rw [le, le]; omega
    simp [Number.digit?, h9, hz, hZ] at h
  · rintro rfl
    have hp : Number.digit? 16 '+' = none := by decide
    rw [hp] at h
    contradiction

/-- The four digits of a code unit are read as its number. -/
theorem Quad.readUnit {q : List Char} {n : Nat} (h : Quad q n) :
    ∃ a b c d, Text.Utf8.encode q = [a, b, c, d] ∧ Json.readUnit [a, b, c, d] = .ok (n, []) := by
  cases h with
  | @digits a b c d i j k l ha hb hc hd =>
    obtain ⟨hi, ha', hp⟩ := digit?_bounds ha
    obtain ⟨hj, hb', -⟩ := digit?_bounds hb
    obtain ⟨hk, hc', -⟩ := digit?_bounds hc
    obtain ⟨hl, hd', -⟩ := digit?_bounds hd
    have hdecode := Text.Utf8.decode?_encode [a, b, c, d]
    have hencode : Text.Utf8.encode [a, b, c, d] = [a, b, c, d].map fun c => UInt8.ofNat c.toNat :=
      Text.Utf8.encode_ascii (by simp [ha', hb', hc', hd'])
    rw [hencode] at hdecode
    have hi' : i < 65536 := by omega
    have hj' : i * 16 + j < 65536 := by omega
    have hk' : (i * 16 + j) * 16 + k < 65536 := by omega
    have hl' : ((i * 16 + j) * 16 + k) * 16 + l < 65536 := by omega
    have hread : Number.readUnsigned 16 0x10000 [a, b, c, d] =
        .ok (((i * 16 + j) * 16 + k) * 16 + l) := by
      simp [Number.readUnsigned, Number.readDigits, hp, ha, hb, hc, hd, hi', hj', hk', hl']
    refine ⟨_, _, _, _, hencode, ?_⟩
    simp only [List.map_cons, List.map_nil] at hdecode
    simp only [Json.readUnit, hdecode, hread]

theorem letters_unescape : ∀ p ∈ letters, p.1.toNat < 0x80 ∧ UInt8.ofNat p.1.toNat ≠ 0x75 ∧
    unescapeByte (UInt8.ofNat p.1.toNat) = p.2 := by
  decide

/-- A text of plain characters may stand as it is. -/
theorem chars_plain {cs : List Char} (h : cs.all isPlain = true) : Chars cs cs := by
  induction cs with
  | nil => exact .nil
  | cons c cs ih =>
    obtain ⟨hc, hcs⟩ := Bool.and_eq_true_iff.mp h
    obtain ⟨hl, -, hq, hb⟩ := isPlain_iff.mp hc
    exact .raw hl hq hb (ih hcs)

/-- The reader finds the text that the inside of a string stands for. -/
theorem Chars.spells {ws cs : List Char} (h : Chars ws cs) : Spells (Text.Utf8.encode ws) cs := by
  have hb : String.utf8EncodeChar '\\' = [0x5c] := by decide
  have hu : String.utf8EncodeChar 'u' = [0x75] := by decide
  induction h with
  | nil => exact .nil
  | raw hc hq hb h ih => exact .raw hq hb ih
  | letter hk h ih =>
    obtain ⟨ha, hne, hr⟩ := letters_unescape _ hk
    rw [Text.Utf8.encode_cons, Text.Utf8.encode_cons, hb, Text.Utf8.encodeChar_ascii ha]
    have hs := Spells.letter hne ih
    rw [hr] at hs
    exact hs
  | unicode hq hh hl h ih =>
    obtain ⟨a, b, c, d, hd, hr⟩ := hq.readUnit
    rw [Text.Utf8.encode_cons, Text.Utf8.encode_cons, Text.Utf8.encode_append, hb, hu, hd]
    exact .unicode hr hl hh ih
  | pair hp hq hh hl h ih =>
    obtain ⟨a, b, c, d, hd, hr⟩ := hp.readUnit
    obtain ⟨a', b', c', d', hd', hr'⟩ := hq.readUnit
    simp only [Text.Utf8.encode_cons, Text.Utf8.encode_append, hb, hu, hd, hd']
    exact .pair hr hh hr' hl ih

end LockTrace.Json
