import LockTrace.Proofs.Json.Grammar

namespace LockTrace.Json

/-- The text behind a number does not go on with it. -/
def Ends (bs : List UInt8) : Prop :=
  ∀ b ∈ bs.head?, isDigit b = false ∧ b ≠ 0x2e ∧ b ≠ 0x65 ∧ b ≠ 0x45

theorem ends_nil : Ends [] := by
  intro b hb
  contradiction

theorem ends_cons {b : UInt8} {bs : List UInt8}
    (h : isDigit b = false ∧ b ≠ 0x2e ∧ b ≠ 0x65 ∧ b ≠ 0x45) : Ends (b :: bs) := by
  intro b' hb
  cases hb
  exact h

theorem Fraction.span {fraction : List Char} (h : Fraction fraction) {rest : List UInt8}
    (hr : ∀ b ∈ rest.head?, isDigit b = false ∧ b ≠ 0x2e) :
    spanFraction (Text.Utf8.encode fraction ++ rest) = (Text.Utf8.encode fraction, rest) := by
  cases h with
  | none =>
    cases rest with
    | nil => rfl
    | cons b rest => simp [spanFraction, (hr b (by simp)).2]
  | point h =>
    have hp : String.utf8EncodeChar '.' = [0x2e] := by decide
    rw [Text.Utf8.encode_cons, hp, List.singleton_append, List.cons_append, spanFraction,
      h.span fun b hb => (hr b hb).1]

theorem Fraction.head {fraction : List Char} (h : Fraction fraction) {rest : List UInt8}
    (hr : ∀ b ∈ rest.head?, isDigit b = false) :
    ∀ b ∈ (Text.Utf8.encode fraction ++ rest).head?, isDigit b = false := by
  cases h with
  | none => exact hr
  | point h =>
    intro b hb
    have hp : String.utf8EncodeChar '.' = [0x2e] := by decide
    rw [Text.Utf8.encode_cons, hp] at hb
    cases hb
    rfl

theorem spanSignedDigits_text {sign ds : List Char} (hs : sign = [] ∨ sign = ['+'] ∨ sign = ['-'])
    (h : Digits ds) {rest : List UInt8} (hr : ∀ b ∈ rest.head?, isDigit b = false) :
    spanSignedDigits (Text.Utf8.encode (sign ++ ds) ++ rest) =
      (Text.Utf8.encode (sign ++ ds), rest) := by
  have hplus : String.utf8EncodeChar '+' = [0x2b] := by decide
  have hminus : String.utf8EncodeChar '-' = [0x2d] := by decide
  rcases hs with rfl | rfl | rfl
  · rw [List.nil_append]
    cases hb : Text.Utf8.encode ds with
    | nil => exact absurd hb (encode_ne_nil h.1)
    | cons b bs =>
      have hd : isDigit b = true := h.isDigit (by simp [hb])
      have hne : ¬ (b = 0x2b ∨ b = 0x2d) := by
        rintro (rfl | rfl) <;> contradiction
      rw [List.cons_append, spanSignedDigits, if_neg hne, ← List.cons_append, ← hb, h.span hr]
  · simp [spanSignedDigits, hplus, h.span hr]
  · simp [spanSignedDigits, hminus, h.span hr]

theorem Exponent.span {exponent : List Char} (h : Exponent exponent) {rest : List UInt8}
    (hr : Ends rest) :
    spanExponent (Text.Utf8.encode exponent ++ rest) = (Text.Utf8.encode exponent, rest) := by
  cases h with
  | none =>
    cases rest with
    | nil => rfl
    | cons b rest => simp [spanExponent, hr b (by simp)]
  | power he hs h =>
    have hsd := spanSignedDigits_text hs h fun b hb => (hr b hb).1
    have hsmall : String.utf8EncodeChar 'e' = [0x65] := by decide
    have hlarge : String.utf8EncodeChar 'E' = [0x45] := by decide
    rcases he with rfl | rfl
    · rw [Text.Utf8.encode_cons, hsmall, List.singleton_append, List.cons_append, spanExponent,
        if_pos (Or.inl rfl), hsd]
    · rw [Text.Utf8.encode_cons, hlarge, List.singleton_append, List.cons_append, spanExponent,
        if_pos (Or.inr rfl), hsd]

theorem Exponent.head {exponent : List Char} (h : Exponent exponent) {rest : List UInt8}
    (hr : Ends rest) :
    ∀ b ∈ (Text.Utf8.encode exponent ++ rest).head?, isDigit b = false ∧ b ≠ 0x2e := by
  cases h with
  | none => exact fun b hb => ⟨(hr b hb).1, (hr b hb).2.1⟩
  | power he hs h =>
    intro b hb
    have hsmall : String.utf8EncodeChar 'e' = [0x65] := by decide
    have hlarge : String.utf8EncodeChar 'E' = [0x45] := by decide
    rcases he with rfl | rfl
    · rw [Text.Utf8.encode_cons, hsmall] at hb
      cases hb
      decide
    · rw [Text.Utf8.encode_cons, hlarge] at hb
      cases hb
      decide

/-- A number as bytes. -/
def numeral (minus : List Char) (n : Nat) (fraction exponent : List Char) : List UInt8 :=
  Text.Utf8.encode minus ++ (digits n ++ (Text.Utf8.encode fraction ++ Text.Utf8.encode exponent))

/-- The form that the reader takes a number to have. -/
def formOf (minus fraction exponent : List Char) : NumberForm :=
  if fraction ≠ [] ∨ exponent ≠ [] then .float else if minus ≠ [] then .signed else .unsigned

section
variable {minus fraction exponent : List Char} (n : Nat) (hm : minus = [] ∨ minus = ['-'])
  (hf : Fraction fraction) (he : Exponent exponent) {rest : List UInt8}

theorem encode_minus : Text.Utf8.encode ['-'] = [0x2d] := by
  decide

/-- A number starts with a minus sign or a digit. -/
theorem exists_digit (n : Nat) : ∃ d ds, digits n = d :: ds ∧ isDigit d = true ∧ d ≠ 0x2d := by
  cases hb : digits n with
  | nil => exact absurd hb (encode_ne_nil (digits_toDigits n).1)
  | cons d ds =>
    have hd : isDigit d = true := (digits_toDigits n).isDigit (by rw [← digits]; simp [hb])
    refine ⟨d, ds, rfl, hd, ?_⟩
    rintro rfl
    contradiction

include hm in
theorem spanMinus_text (rest : List UInt8) :
    spanMinus (Text.Utf8.encode minus ++ (digits n ++ rest)) =
      (Text.Utf8.encode minus, digits n ++ rest) := by
  rcases hm with rfl | rfl
  · obtain ⟨d, ds, hb, -, hne⟩ := exists_digit n
    simp [hb, spanMinus, hne]
  · rw [encode_minus]
    rfl

theorem digits_span (n : Nat) {rest : List UInt8}
    (hr : ∀ b ∈ rest.head?, isDigit b = false) :
    spanDigits (digits n ++ rest) = (digits n, rest) :=
  (digits_toDigits n).span hr

include hm hf he in
theorem spanNumber_numeral (hr : Ends rest) :
    spanNumber (numeral minus n fraction exponent ++ rest) =
      (numeral minus n fraction exponent, formOf minus fraction exponent, rest) := by
  have hx := he.head hr
  have hd := hf.head fun b hb => (hx b hb).1
  have empty (cs : List Char) : Text.Utf8.encode cs ≠ [] ↔ cs ≠ [] := by
    refine ⟨?_, encode_ne_nil⟩
    rintro h rfl
    exact h rfl
  simp only [numeral, List.append_assoc, spanNumber, spanMinus_text n hm, digits_span n hd,
    hf.span hx, he.span hr, empty, formOf]

include hm in
theorem numeral_ne_minus : numeral minus n fraction exponent ≠ [0x2d] := by
  obtain ⟨d, ds, hb, -, hne⟩ := exists_digit n
  rcases hm with rfl | rfl
  · simp [numeral, hb, hne]
  · simp only [numeral, hb, encode_minus]
    simp

variable (fraction exponent) in
include hm in
theorem exists_numeral : ∃ b bs, numeral minus n fraction exponent = b :: bs ∧
    (b = 0x2d ∨ isDigit b = true) := by
  obtain ⟨d, ds, hb, hd, -⟩ := exists_digit n
  rcases hm with rfl | rfl
  · exact ⟨d, _, by simp only [numeral, hb]; rfl, Or.inr hd⟩
  · exact ⟨0x2d, _, by simp only [numeral, encode_minus]; rfl, Or.inl rfl⟩

theorem ne_of_numeral {b k : UInt8} (hb : b = 0x2d ∨ isDigit b = true) (hm : k ≠ 0x2d)
    (hk : isDigit k = false) : b ≠ k := by
  rintro rfl
  rcases hb with rfl | hb
  · contradiction
  · rw [hb] at hk
    contradiction

theorem scan_number (pos : Nat) {b : UInt8} (hb : b = 0x2d ∨ isDigit b = true)
    (bs : List UInt8) : scan pos b bs = scanNumber pos (b :: bs) := by
  have hne {k : UInt8} (hm : k ≠ 0x2d) (hk : isDigit k = false) : b ≠ k := ne_of_numeral hb hm hk
  rw [scan, if_neg (hne (by decide) rfl), if_neg (hne (by decide) rfl),
    if_neg (hne (by decide) rfl), if_neg (hne (by decide) rfl), if_neg (hne (by decide) rfl),
    if_neg (hne (by decide) rfl), if_neg (hne (by decide) rfl), if_neg (hne (by decide) rfl),
    if_neg (hne (by decide) rfl), if_neg (hne (by decide) rfl), if_pos hb]

theorem not_isSpace {b : UInt8} (hb : b = 0x2d ∨ isDigit b = true) : isSpace b = false := by
  have hne {k : UInt8} (hm : k ≠ 0x2d) (hk : isDigit k = false) : b ≠ k := ne_of_numeral hb hm hk
  simp only [isSpace, Bool.or_eq_false_iff, decide_eq_false_iff_not]
  exact ⟨⟨⟨hne (by decide) rfl, hne (by decide) rfl⟩, hne (by decide) rfl⟩, hne (by decide) rfl⟩

include hm hf he in
/-- A number is taken off the text as a whole. -/
theorem next_numeral (pos : Nat) (hr : Ends rest) :
    next pos (numeral minus n fraction exponent ++ rest) =
      .ok (some (.number pos (pos + (numeral minus n fraction exponent).length)
          (numeral minus n fraction exponent) (formOf minus fraction exponent),
        pos + (numeral minus n fraction exponent).length, rest)) := by
  have hn : scanNumber pos (numeral minus n fraction exponent ++ rest) =
      .ok (.number pos (pos + (numeral minus n fraction exponent).length)
          (numeral minus n fraction exponent) (formOf minus fraction exponent),
        pos + (numeral minus n fraction exponent).length, rest) := by
    simp only [scanNumber, spanNumber_numeral n hm hf he hr, if_neg (numeral_ne_minus n hm)]
  obtain ⟨b, bs, hb, hs⟩ := exists_numeral fraction exponent n hm
  rw [hb] at hn ⊢
  rw [List.cons_append] at hn ⊢
  rw [next, not_isSpace hs, scan_number pos hs, hn]
  rfl

end

/-- A number with a fraction or an exponent has a value. -/
theorem exists_readReal {minus fraction exponent : List Char} (n : Nat)
    (hm : minus = [] ∨ minus = ['-']) (hf : Fraction fraction) (he : Exponent exponent) :
    ∃ x, readReal (numeral minus n fraction exponent) = .ok x := by
  have hx := he.head ends_nil
  have hd := hf.head fun b hb => (hx b hb).1
  have hne : ¬ digits n = [] := encode_ne_nil (digits_toDigits n).1
  rw [List.append_nil] at hx hd
  simp only [readReal, numeral, spanMinus_text n hm, digits_span n hd, hf.span hx, hne, false_and,
    if_false]
  cases he with
  | none => exact ⟨_, rfl⟩
  | @power e sign ds he hs h =>
    have hletter : ∃ b, String.utf8EncodeChar e = [b] := by
      rcases he with rfl | rfl
      · exact ⟨0x65, by decide⟩
      · exact ⟨0x45, by decide⟩
    obtain ⟨b, hb⟩ := hletter
    have hplus : String.utf8EncodeChar '+' = [0x2b] := by decide
    obtain ⟨d, bs, hds⟩ := List.exists_cons_of_ne_nil (encode_ne_nil h.1)
    have hd : isDigit d = true := h.isDigit (by simp [hds])
    have hdm : d ≠ 0x2d := by
      rintro rfl
      contradiction
    have hdp : d ≠ 0x2b := by
      rintro rfl
      contradiction
    simp only [Text.Utf8.encode_cons, Text.Utf8.encode_append, hb, List.singleton_append, hds]
    rcases hs with rfl | rfl | rfl
    · simp [hdm, hdp]
    · simp [hplus]
    · rw [encode_minus]
      simp

theorem numeral_count (n : Nat) : numeral [] n [] [] = digits n := by
  simp [numeral]

theorem readWhole_digits {n : Nat} :
    readWhole (digits n) = if n < UInt64.size then .ok (.unsigned n)
      else if n < 1 <<< 128 then .ok (.wideUnsigned n) else .error .malformed := by
  simp only [readWhole, digitsValue_digits]

end LockTrace.Json
