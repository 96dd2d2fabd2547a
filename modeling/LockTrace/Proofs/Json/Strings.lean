import LockTrace.Json.Token
import LockTrace.Proofs.Json.Escape
import LockTrace.Proofs.Text.Utf8

namespace LockTrace.Json

/-- The bytes between the quotes of a string, as the search for the closing quote divides them. -/
inductive Inside : List UInt8 → Prop
  | nil : Inside []
  | plain {bs : List UInt8} {b : UInt8} (hq : b ≠ 0x22) (hb : b ≠ 0x5c) (h : Inside bs) :
      Inside (b :: bs)
  | letter {bs : List UInt8} {b : UInt8} (hu : b ≠ 0x75) (h : Inside bs) : Inside (0x5c :: b :: bs)
  | unicode {bs : List UInt8} (a b c d : UInt8) (h : Inside bs) :
      Inside (0x5c :: 0x75 :: a :: b :: c :: d :: bs)

theorem Inside.plain_append {as bs : List UInt8} (ha : ∀ b ∈ as, b ≠ 0x22 ∧ b ≠ 0x5c)
    (h : Inside bs) : Inside (as ++ bs) := by
  induction as with
  | nil => exact h
  | cons a as ih =>
    obtain ⟨hq, hb⟩ := ha a (by simp)
    exact .plain hq hb (ih fun b hb => ha b (by simp [hb]))

theorem scanUnicode_single (found : List UInt8) (a b c d : UInt8) {bs : List UInt8}
    (h : ∀ rest, bs ≠ 0x5c :: 0x75 :: rest) :
    scanUnicode found (a :: b :: c :: d :: bs) = .ok (d :: c :: b :: a :: found, bs) := by
  unfold scanUnicode
  split
  · rename_i heq
    cases heq
    split
    · rename_i h'
      exact absurd rfl (h _)
    · rfl
  · simp_all

theorem scanString_quote (found : List UInt8) (escapes : Bool) (bs : List UInt8) :
    scanString found escapes (0x22 :: bs) = .ok (found.reverse, escapes, bs) := by
  rw [scanString.eq_def]
  rfl

theorem scanString_plain (found : List UInt8) (escapes : Bool) {b : UInt8} (hq : b ≠ 0x22)
    (hb : b ≠ 0x5c) (bs : List UInt8) :
    scanString found escapes (b :: bs) = scanString (b :: found) escapes bs := by
  rw [scanString.eq_def]
  simp only [if_neg hq, if_neg hb]

theorem scanString_letter (found : List UInt8) (escapes : Bool) {b : UInt8} (hu : b ≠ 0x75)
    (bs : List UInt8) :
    scanString found escapes (0x5c :: b :: bs) = scanString (b :: 0x5c :: found) true bs := by
  rw [scanString.eq_def]
  simp [hu]

theorem scanString_unicode (found : List UInt8) (escapes : Bool) {bs found' rest : List UInt8}
    (h : scanUnicode (0x75 :: 0x5c :: found) bs = .ok (found', rest)) :
    scanString found escapes (0x5c :: 0x75 :: bs) = scanString found' true rest := by
  rw [scanString.eq_def]
  simp only [show (0x5c : UInt8) ≠ 0x22 by decide, if_false, if_true]
  split
  · simp_all
  · rename_i h'
    rw [h] at h'
    cases h'
    rfl

/-- The search for the closing quote ends at the quote behind the inside of a string. -/
theorem scanString_inside {body : List UInt8} (h : Inside body) (found : List UInt8)
    (escapes : Bool) (rest : List UInt8) :
    scanString found escapes (body ++ 0x22 :: rest) =
      .ok (found.reverse ++ body, escapes || body.contains 0x5c, rest) := by
  induction hn : body.length using Nat.strongRecOn generalizing body found escapes with
  | _ n ih =>
    subst hn
    cases h with
    | nil => simp [scanString_quote]
    | plain hq hb h =>
      rw [List.cons_append, scanString_plain _ _ hq hb, ih _ (by simp) h _ _ rfl]
      simp [Ne.symm hb]
    | letter hu h =>
      rw [List.cons_append, List.cons_append, scanString_letter _ _ hu,
        ih _ (by simp only [List.length_cons]; omega) h _ _ rfl]
      simp
    | @unicode bs a b c d h =>
      have alone (hs : ∀ rest', bs ++ 0x22 :: rest ≠ 0x5c :: 0x75 :: rest') :
          scanString found escapes (0x5c :: 0x75 :: a :: b :: c :: d :: (bs ++ 0x22 :: rest)) =
            .ok (found.reverse ++ 0x5c :: 0x75 :: a :: b :: c :: d :: bs, true, rest) := by
        rw [scanString_unicode _ _ (scanUnicode_single _ a b c d hs),
          ih _ (by simp only [List.length_cons]; omega) h _ _ rfl]
        simp
      simp only [List.cons_append, List.contains_cons, beq_self_eq_true, Bool.true_or,
        Bool.or_true]
      cases h with
      | nil => exact alone (by simp)
      | plain hq hb h => exact alone (by simp [hb])
      | letter hu h => exact alone (by simp [hu])
      | @unicode bs a' b' c' d' h =>
        -- A second escape right behind the first is passed over together with it.
        have pair : scanUnicode (0x75 :: 0x5c :: found)
            (a :: b :: c :: d :: 0x5c :: 0x75 :: a' :: b' :: c' :: d' :: (bs ++ 0x22 :: rest)) =
            .ok (d' :: c' :: b' :: a' :: 0x75 :: 0x5c :: d :: c :: b :: a :: 0x75 :: 0x5c :: found,
              bs ++ 0x22 :: rest) := rfl
        simp only [List.cons_append]
        rw [scanString_unicode _ _ pair, ih _ (by simp only [List.length_cons]; omega) h _ _ rfl]
        simp

/-- The bytes inside of a string and the text that they stand for: characters as they are, letters
behind a backslash, and numbers of characters, those of surrogates in pairs. -/
inductive Spells : List UInt8 → List Char → Prop
  | nil : Spells [] []
  | raw {bs : List UInt8} {cs : List Char} {c : Char} (hq : c ≠ '\"') (hb : c ≠ '\\')
      (h : Spells bs cs) : Spells (String.utf8EncodeChar c ++ bs) (c :: cs)
  | letter {bs : List UInt8} {cs : List Char} {b : UInt8} (hu : b ≠ 0x75) (h : Spells bs cs) :
      Spells (0x5c :: b :: bs) (unescapeByte b :: cs)
  | unicode {bs : List UInt8} {cs : List Char} {a b c d : UInt8} {n : Nat}
      (hr : readUnit [a, b, c, d] = .ok (n, [])) (hl : isLowSurrogate n = false)
      (hh : isHighSurrogate n = false) (h : Spells bs cs) :
      Spells (0x5c :: 0x75 :: a :: b :: c :: d :: bs) (Char.ofNat n :: cs)
  | pair {bs : List UInt8} {cs : List Char} {a b c d a' b' c' d' : UInt8} {high low : Nat}
      (hh : readUnit [a, b, c, d] = .ok (high, [])) (hs : isHighSurrogate high = true)
      (hl : readUnit [a', b', c', d'] = .ok (low, [])) (ht : isLowSurrogate low = true)
      (h : Spells bs cs) :
      Spells (0x5c :: 0x75 :: a :: b :: c :: d :: 0x5c :: 0x75 :: a' :: b' :: c' :: d' :: bs)
        (Char.ofNat (joinSurrogates high low) :: cs)

theorem Spells.inside {bs : List UInt8} {cs : List Char} (h : Spells bs cs) : Inside bs := by
  induction h with
  | nil => exact .nil
  | @raw bs cs c hq hb h ih =>
    apply Inside.plain_append _ ih
    intro b hb'
    constructor
    · rintro rfl
      exact hq (Text.Utf8.eq_of_mem_encodeChar (k := '\"') (by decide) hb')
    · rintro rfl
      exact hb (Text.Utf8.eq_of_mem_encodeChar (k := '\\') (by decide) hb')
  | letter hu h ih => exact .letter hu ih
  | unicode hr hl hh h ih => exact .unicode _ _ _ _ ih
  | pair hh hs hl ht h ih => exact .unicode _ _ _ _ (.unicode _ _ _ _ ih)

theorem readUnit_append {a b c d : UInt8} {n : Nat} (h : readUnit [a, b, c, d] = .ok (n, []))
    (bs : List UInt8) : readUnit (a :: b :: c :: d :: bs) = .ok (n, bs) := by
  simp only [readUnit] at h ⊢
  split at h
  · cases h
  · split at h
    · cases h
    · simp_all

theorem readUnicode_single {a b c d : UInt8} {n : Nat} (h : readUnit [a, b, c, d] = .ok (n, []))
    (hl : isLowSurrogate n = false) (hh : isHighSurrogate n = false) (bs : List UInt8) :
    readUnicode (a :: b :: c :: d :: bs) = .ok (Char.ofNat n, bs) := by
  simp [readUnicode, readUnit_append h, hl, hh]

theorem not_low_of_high {n : Nat} (h : isHighSurrogate n = true) : isLowSurrogate n = false := by
  simp only [isHighSurrogate, isLowSurrogate, Bool.and_eq_true, decide_eq_true_eq,
    Bool.and_eq_false_iff, decide_eq_false_iff_not] at h ⊢
  omega

theorem readUnicode_pair {a b c d a' b' c' d' : UInt8} {high low : Nat}
    (hh : readUnit [a, b, c, d] = .ok (high, [])) (hs : isHighSurrogate high = true)
    (hl : readUnit [a', b', c', d'] = .ok (low, [])) (ht : isLowSurrogate low = true)
    (bs : List UInt8) :
    readUnicode (a :: b :: c :: d :: 0x5c :: 0x75 :: a' :: b' :: c' :: d' :: bs) =
      .ok (Char.ofNat (joinSurrogates high low), bs) := by
  have hn : ¬ (a' :: b' :: c' :: d' :: bs).length < 4 := by
    simp only [List.length_cons]
    omega
  simp only [readUnicode, readUnit_append hh, not_low_of_high hs, hs, readLow, if_neg hn,
    readUnit_append hl, ht, if_true, Bool.false_eq_true, if_false]

theorem unescapeFrom_letter (found : List Char) {b : UInt8} (hu : b ≠ 0x75) (bs : List UInt8) :
    unescapeFrom found (0x5c :: b :: bs) = unescapeFrom (unescapeByte b :: found) bs := by
  rw [unescapeFrom.eq_def]
  simp [isBackslash, hu]

theorem unescapeFrom_unicode (found : List Char) {bs rest : List UInt8} {c : Char}
    (h : readUnicode bs = .ok (c, rest)) :
    unescapeFrom found (0x5c :: 0x75 :: bs) = unescapeFrom (c :: found) rest := by
  rw [unescapeFrom.eq_def]
  simp only [isBackslash, decide_true, if_true]
  split
  · simp_all
  · rename_i h'
    rw [h] at h'
    cases h'
    rfl

/-- A stretch without a backslash is read as a whole. -/
theorem unescapeFrom_run (found : List Char) (bs : List UInt8) :
    unescapeFrom found bs =
      match Text.Utf8.decode? (bs.takeWhile (!isBackslash ·)) with
      | none => .error .notUtf8
      | some cs => unescapeFrom (cs.reverse ++ found) (bs.dropWhile (!isBackslash ·)) := by
  cases bs with
  | nil => simp
  | cons b bs =>
    cases hb : isBackslash b with
    | true => simp [hb]
    | false =>
      have htake : (b :: bs).takeWhile (!isBackslash ·) = b :: bs.takeWhile (!isBackslash ·) := by
        simp [hb]
      have hdrop : (b :: bs).dropWhile (!isBackslash ·) = bs.dropWhile (!isBackslash ·) := by
        simp [hb]
      rw [unescapeFrom.eq_def, htake, hdrop]
      cases hd : Text.Utf8.decode? (b :: bs.takeWhile (!isBackslash ·)) with
      | none => simp [hb, hd]
      | some cs => simp [hb, hd]

/-- A character that is no backslash stands for itself. -/
theorem unescapeFrom_encodeChar (found : List Char) {c : Char} (hc : c ≠ '\\')
    (bs : List UInt8) :
    unescapeFrom found (String.utf8EncodeChar c ++ bs) = unescapeFrom (c :: found) bs := by
  have hp : ∀ b ∈ String.utf8EncodeChar c, (!isBackslash b) = true := by
    intro b hb
    have hne : b ≠ 0x5c := by
      rintro rfl
      exact hc (Text.Utf8.eq_of_mem_encodeChar (k := '\\') (by decide) hb)
    simp [isBackslash, hne]
  have hd := Text.Utf8.decode?_encode_append [c] (bs.takeWhile (!isBackslash ·))
  rw [Text.Utf8.encode_cons, Text.Utf8.encode_nil, List.append_nil] at hd
  rw [unescapeFrom_run found, unescapeFrom_run (c :: found), List.takeWhile_append_of_pos hp,
    List.dropWhile_append_of_pos hp, hd]
  cases Text.Utf8.decode? (bs.takeWhile (!isBackslash ·)) <;> simp

theorem unescapeFrom_spells {bs : List UInt8} {cs : List Char} (h : Spells bs cs)
    (found : List Char) : unescapeFrom found bs = .ok (found.reverse ++ cs) := by
  induction h generalizing found with
  | nil => rw [unescapeFrom]; simp
  | raw hq hb h ih => simp [unescapeFrom_encodeChar _ hb, ih]
  | letter hu h ih => simp [unescapeFrom_letter _ hu, ih]
  | unicode hr hl hh h ih => simp [unescapeFrom_unicode _ (readUnicode_single hr hl hh _), ih]
  | pair hh hs hl ht h ih => simp [unescapeFrom_unicode _ (readUnicode_pair hh hs hl ht _), ih]

/-- Without a backslash the bytes inside of a string are those of its text. -/
theorem Spells.eq_encode {bs : List UInt8} {cs : List Char} (h : Spells bs cs)
    (hb : (0x5c : UInt8) ∉ bs) : bs = Text.Utf8.encode cs := by
  induction h with
  | nil => rfl
  | raw hq hc h ih =>
    rw [Text.Utf8.encode_cons, ← ih fun hm => hb (List.mem_append_right _ hm)]
  | letter | unicode | pair => exact absurd (List.mem_cons_self ..) hb

/-- Reading gives the text back that the inside of a string stands for. -/
theorem readString_spells {bs : List UInt8} {cs : List Char} (h : Spells bs cs) :
    readString bs (bs.contains 0x5c) = .ok (String.ofList cs) := by
  cases he : bs.contains 0x5c with
  | true =>
    rw [readString, if_pos rfl, unescapeFrom_spells h]
    rfl
  | false =>
    have hb : (0x5c : UInt8) ∉ bs := by simpa using he
    rw [readString, h.eq_encode hb, Text.Utf8.decode?_encode]
    rfl

theorem Spells.append {as bs : List UInt8} {cs ds : List Char} (ha : Spells as cs)
    (hb : Spells bs ds) : Spells (as ++ bs) (cs ++ ds) := by
  induction ha with
  | nil => exact hb
  | raw hq hc h ih =>
    rw [List.append_assoc]
    exact .raw hq hc ih
  | letter hu h ih => exact .letter hu ih
  | unicode hr hl hh h ih => exact .unicode hr hl hh ih
  | pair hh hs hl ht h ih => exact .pair hh hs hl ht ih

theorem readUnsigned_digits : ∀ n < 0x80, Number.readUnsigned 16 0x10000
    ['0', '0', Nat.digitChar (n / 16), Nat.digitChar (n % 16)] = .ok n := by
  decide

theorem readUnit_digits {n : Nat} (h : n < 0x80) :
    readUnit [0x30, 0x30, UInt8.ofNat (Nat.digitChar (n / 16)).toNat,
      UInt8.ofNat (Nat.digitChar (n % 16)).toNat] = .ok (n, []) := by
  have high := (digitChar_bounds (n / 16) (by omega)).2
  have low := (digitChar_bounds (n % 16) (by omega)).2
  have hd := Text.Utf8.decode?_encode ['0', '0', Nat.digitChar (n / 16), Nat.digitChar (n % 16)]
  rw [Text.Utf8.encode_ascii (by simp [high, low])] at hd
  simp only [List.map_cons, List.map_nil] at hd
  change Text.Utf8.decode? [0x30, 0x30, _, _] = _ at hd
  rw [readUnit, hd]
  simp [readUnsigned_digits n h]

theorem shortEscapes_unescape : ∀ p ∈ shortEscapes, UInt8.ofNat p.2.toNat ≠ 0x75 ∧
    unescapeByte (UInt8.ofNat p.2.toNat) = p.1 := by
  decide

theorem spells_escapeChar (c : Char) : Spells (Text.Utf8.encode (escapeChar c)) [c] := by
  rcases escapeChar_cases c with ⟨d, hd, he⟩ | ⟨hc, he⟩ | ⟨hc, hq, hb, he⟩
  · obtain ⟨hu, hr⟩ := shortEscapes_unescape _ hd
    have hs := (shortEscapes_bounds _ hd).2
    have h := Spells.letter hu .nil
    rw [hr] at h
    rw [he, Text.Utf8.encode_ascii (by simpa using hs)]
    exact h
  · have high := (digitChar_bounds (c.toNat / 16) (by omega)).2
    have low := (digitChar_bounds (c.toNat % 16) (by omega)).2
    have hr := readUnit_digits hc
    have h := Spells.unicode hr (by simp [isLowSurrogate]; omega) (by simp [isHighSurrogate]; omega)
      .nil
    rw [Char.ofNat_toNat] at h
    rw [he, Text.Utf8.encode_ascii (by simp [high, low])]
    exact h
  · rw [he, Text.Utf8.encode_cons]
    exact .raw hq hb .nil

theorem Spelled.spells {cs ws : List Char} (h : Spelled cs ws) :
    Spells (Text.Utf8.encode ws) cs := by
  induction h with
  | nil => exact .nil
  | escaped c h ih =>
    rw [Text.Utf8.encode_append]
    exact (spells_escapeChar c).append ih
  | copied hc h ih =>
    obtain ⟨_, _, hq, hb⟩ := isPlain_iff.mp hc
    exact .raw hq hb ih

theorem spells_escape (cs : List Char) : Spells (Text.Utf8.encode (escape cs)) cs :=
  (spelled_escape cs).spells

end LockTrace.Json
