import LockTrace.Json.Lexeme
import Mathlib.Tactic.Common

namespace LockTrace.Json

theorem scanLiteral_append {ws bs rest : List UInt8} (h : scanLiteral ws bs = .ok rest)
    (more : List UInt8) : scanLiteral ws (bs ++ more) = .ok (rest ++ more) := by
  induction ws generalizing bs with
  | nil =>
    cases h
    rfl
  | cons w ws ih =>
    cases bs with
    | nil => simp [scanLiteral] at h
    | cons b bs =>
      simp only [List.cons_append, scanLiteral] at h ⊢
      split at h
      · rename_i hb
        rw [if_pos hb]
        exact ih h
      · contradiction

/-- The escape behind an escape is looked for, but no string ends in the middle of one. -/
theorem scanUnicode_append {found found' bs rest : List UInt8}
    (h : scanUnicode found bs = .ok (found', rest)) (more : List UInt8)
    (hr : rest ≠ [] ∧ rest ≠ [0x5c]) :
    scanUnicode found (bs ++ more) = .ok (found', rest ++ more) := by
  unfold scanUnicode at h
  split at h
  · rename_i a b c d bs
    split at h
    · split at h
      · cases h
        rfl
      · contradiction
    · rename_i hn
      cases h
      rcases rest with _ | ⟨x, _ | ⟨y, rest⟩⟩
      · exact absurd rfl hr.1
      · have hx : x ≠ 0x5c := by
          rintro rfl
          exact hr.2 rfl
        simp [scanUnicode, hx]
      · have hxy : x = 0x5c → y ≠ 0x75 := by
          rintro rfl rfl
          exact hn rest rfl
        unfold scanUnicode
        simp only [List.cons_append]
        split
        · rename_i heq
          cases heq
          exact absurd rfl (hxy rfl)
        · rfl
  · contradiction

/-- A string that is closed stays the same when more text follows. -/
theorem scanString_append {found bs body rest : List UInt8} {escapes escapes' : Bool}
    (h : scanString found escapes bs = .ok (body, escapes', rest)) (more : List UInt8) :
    scanString found escapes (bs ++ more) = .ok (body, escapes', rest ++ more) := by
  fun_induction scanString found escapes bs with
  | case1 => contradiction
  | case2 =>
    cases h
    rw [List.cons_append, scanString.eq_def]
    rfl
  | case3 => contradiction
  | case4 => contradiction
  | case5 found escapes bs found' rest' hq hs ih =>
    have hr : rest' ≠ [] ∧ rest' ≠ [0x5c] := by
      constructor
      · rintro rfl
        rw [scanString.eq_def] at h
        contradiction
      · rintro rfl
        rw [scanString.eq_def] at h
        simp at h
    rw [List.cons_append, List.cons_append, scanString.eq_def]
    simp only [hq, if_false, if_true]
    split
    · rename_i he
      rw [scanUnicode_append hs more hr] at he
      contradiction
    · rename_i he
      rw [scanUnicode_append hs more hr] at he
      cases he
      exact ih h
  | case6 found escapes c bs hc hq ih =>
    rw [List.cons_append, List.cons_append, scanString.eq_def]
    simp only [hq, hc, if_false, if_true]
    exact ih h
  | case7 found escapes b bs hq hb ih =>
    rw [List.cons_append, scanString.eq_def]
    simp only [hq, hb, if_false]
    exact ih h

/-- Digits that something follows end where they do. -/
theorem spanDigits_append {bs : List UInt8} (h : (spanDigits bs).2 ≠ []) (more : List UInt8) :
    spanDigits (bs ++ more) = ((spanDigits bs).1, (spanDigits bs).2 ++ more) := by
  induction bs with
  | nil => contradiction
  | cons b bs ih =>
    unfold spanDigits at h ih ⊢
    by_cases hb : isDigit b = true
    · simp only [List.dropWhile_cons, hb, if_true] at h
      have := ih h
      simp only [Prod.mk.injEq] at this
      simp only [List.cons_append, List.takeWhile_cons, List.dropWhile_cons, hb, if_true, this]
    · simp only [List.cons_append, List.takeWhile_cons, List.dropWhile_cons, hb]
      simp

theorem spanMinus_append {bs : List UInt8} (h : bs ≠ []) (more : List UInt8) :
    spanMinus (bs ++ more) = ((spanMinus bs).1, (spanMinus bs).2 ++ more) := by
  cases bs with
  | nil => contradiction
  | cons b bs =>
    by_cases hb : b = 0x2d
    · subst hb
      rfl
    · simp [spanMinus, hb]

theorem spanFraction_append {bs : List UInt8} (h : (spanFraction bs).2 ≠ []) (more : List UInt8) :
    spanFraction (bs ++ more) = ((spanFraction bs).1, (spanFraction bs).2 ++ more) := by
  cases bs with
  | nil => contradiction
  | cons b bs =>
    by_cases hb : b = 0x2e
    · subst hb
      simp only [List.cons_append, spanFraction] at h ⊢
      rw [spanDigits_append h]
    · simp [spanFraction, hb]

theorem spanSignedDigits_append {bs : List UInt8} (h : (spanSignedDigits bs).2 ≠ [])
    (more : List UInt8) :
    spanSignedDigits (bs ++ more) = ((spanSignedDigits bs).1, (spanSignedDigits bs).2 ++ more) := by
  cases bs with
  | nil => contradiction
  | cons b bs =>
    simp only [List.cons_append, spanSignedDigits] at h ⊢
    split at h
    · rename_i hb
      rw [if_pos hb, if_pos hb, spanDigits_append h]
    · rename_i hb
      rw [if_neg hb, if_neg hb, ← List.cons_append, spanDigits_append h]

theorem spanExponent_append {bs : List UInt8} (h : (spanExponent bs).2 ≠ []) (more : List UInt8) :
    spanExponent (bs ++ more) = ((spanExponent bs).1, (spanExponent bs).2 ++ more) := by
  cases bs with
  | nil => contradiction
  | cons b bs =>
    simp only [List.cons_append, spanExponent] at h ⊢
    split at h
    · rename_i hb
      rw [if_pos hb, if_pos hb, spanSignedDigits_append h]
    · rename_i hb
      rw [if_neg hb, if_neg hb]
      rfl

/-- A number that something follows ends where it does. -/
theorem spanNumber_append {bs : List UInt8} (h : (spanNumber bs).2.2 ≠ []) (more : List UInt8) :
    spanNumber (bs ++ more) =
      ((spanNumber bs).1, (spanNumber bs).2.1, (spanNumber bs).2.2 ++ more) := by
  simp only [spanNumber] at h ⊢
  have fraction : (spanFraction (spanDigits (spanMinus bs).2).2).2 ≠ [] := by
    intro hn
    rw [hn] at h
    contradiction
  have digits : (spanDigits (spanMinus bs).2).2 ≠ [] := by
    intro hn
    rw [hn] at fraction
    contradiction
  have start : bs ≠ [] := by
    rintro rfl
    contradiction
  simp only [spanMinus_append start, spanDigits_append digits, spanFraction_append fraction,
    spanExponent_append h]

/-- Only a number has no end of its own. -/
def Lexeme.isNumber : Lexeme → Bool
  | .number .. => true
  | _ => false

theorem scanNumber_append {pos pos' : Nat} {bs rest : List UInt8} {l : Lexeme}
    (h : scanNumber pos bs = .ok (l, pos', rest)) (hr : rest ≠ []) (more : List UInt8) :
    scanNumber pos (bs ++ more) = .ok (l, pos', rest ++ more) := by
  simp only [scanNumber] at h ⊢
  split at h
  · contradiction
  · rename_i hm
    cases h
    rw [spanNumber_append hr, if_neg hm]

theorem isNumber_of_scanNumber {pos pos' : Nat} {bs rest : List UInt8} {l : Lexeme}
    (h : scanNumber pos bs = .ok (l, pos', rest)) : l.isNumber = true := by
  simp only [scanNumber] at h
  split at h
  · contradiction
  · cases h
    rfl

/-- The lexemes of one byte. -/
def punctuation : List (UInt8 × Lexeme) := [(0x7b, .objectStart), (0x7d, .objectEnd),
  (0x5b, .arrayStart), (0x5d, .arrayEnd), (0x3a, .colon), (0x2c, .comma)]

theorem scan_punctuation {b : UInt8} {l : Lexeme} (h : (b, l) ∈ punctuation) (pos : Nat)
    (bs : List UInt8) : scan pos b bs = .ok (l, pos + 1, bs) := by
  simp only [punctuation, List.mem_cons, Prod.mk.injEq, List.not_mem_nil, or_false] at h
  rcases h with ⟨rfl, rfl⟩ | ⟨rfl, rfl⟩ | ⟨rfl, rfl⟩ | ⟨rfl, rfl⟩ | ⟨rfl, rfl⟩ | ⟨rfl, rfl⟩ <;> rfl

/-- A lexeme stays the same when more text follows, if it is no number or something follows it
already. -/
theorem scan_append {pos pos' : Nat} {b : UInt8} {bs rest : List UInt8} {l : Lexeme}
    (h : scan pos b bs = .ok (l, pos', rest)) (hr : l.isNumber = true → rest ≠ [])
    (more : List UInt8) : scan pos b (bs ++ more) = .ok (l, pos', rest ++ more) := by
  by_cases hp : ∃ l, (b, l) ∈ punctuation
  · obtain ⟨l', hl⟩ := hp
    rw [scan_punctuation hl] at h ⊢
    cases h
    rfl
  simp only [punctuation, List.mem_cons, Prod.mk.injEq, List.not_mem_nil, or_false, exists_or,
    exists_eq_right, not_or] at hp
  obtain ⟨h7b, h7d, h5b, h5d, h3a, h2c⟩ := hp
  unfold scan at h ⊢
  rw [if_neg h7b, if_neg h7d, if_neg h5b, if_neg h5d, if_neg h3a, if_neg h2c] at h ⊢
  by_cases h22 : b = 0x22
  · rw [if_pos h22] at h ⊢
    cases hs : scanString [] false bs with
    | error e =>
      rw [hs] at h
      contradiction
    | ok r =>
      rw [hs] at h
      cases h
      rw [scanString_append hs]
      rfl
  rw [if_neg h22] at h ⊢
  by_cases h74 : b = 0x74
  · rw [if_pos h74] at h ⊢
    cases hs : scanLiteral [0x72, 0x75, 0x65] bs with
    | error e =>
      rw [hs] at h
      contradiction
    | ok r =>
      rw [hs] at h
      cases h
      rw [scanLiteral_append hs]
      rfl
  rw [if_neg h74] at h ⊢
  by_cases h66 : b = 0x66
  · rw [if_pos h66] at h ⊢
    cases hs : scanLiteral [0x61, 0x6c, 0x73, 0x65] bs with
    | error e =>
      rw [hs] at h
      contradiction
    | ok r =>
      rw [hs] at h
      cases h
      rw [scanLiteral_append hs]
      rfl
  rw [if_neg h66] at h ⊢
  by_cases h6e : b = 0x6e
  · rw [if_pos h6e] at h ⊢
    cases hs : scanLiteral [0x75, 0x6c, 0x6c] bs with
    | error e =>
      rw [hs] at h
      contradiction
    | ok r =>
      rw [hs] at h
      cases h
      rw [scanLiteral_append hs]
      rfl
  rw [if_neg h6e] at h ⊢
  by_cases hn : b = 0x2d ∨ isDigit b = true
  · rw [if_pos hn] at h ⊢
    exact scanNumber_append h (hr (isNumber_of_scanNumber h)) more
  · rw [if_neg hn] at h
    contradiction

theorem next_append {pos pos' : Nat} {bs rest : List UInt8} {l : Lexeme}
    (h : next pos bs = .ok (some (l, pos', rest))) (hr : l.isNumber = true → rest ≠ [])
    (more : List UInt8) : next pos (bs ++ more) = .ok (some (l, pos', rest ++ more)) := by
  induction bs generalizing pos with
  | nil => simp [next] at h
  | cons b bs ih =>
    simp only [List.cons_append, next] at h ⊢
    split at h
    · rename_i hb
      rw [if_pos hb]
      exact ih h
    · rename_i hb
      rw [if_neg hb]
      cases hs : scan pos b bs with
      | error e =>
        rw [hs] at h
        contradiction
      | ok r =>
        rw [hs] at h
        cases h
        rw [scan_append hs hr]
        rfl

end LockTrace.Json
