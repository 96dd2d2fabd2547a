import LockTrace.Proofs.Json.Cut

namespace LockTrace.Json

section Spans

/-- A stretch in which there is no closing brace, and what follows it. -/
def Splits (bs : List UInt8) (r : List UInt8 × List UInt8) : Prop :=
  bs = r.1 ++ r.2 ∧ 0x7d ∉ r.1

theorem splits_nil (bs : List UInt8) : Splits bs ([], bs) := ⟨rfl, List.not_mem_nil⟩

theorem Splits.cons {bs : List UInt8} {r : List UInt8 × List UInt8} (h : Splits bs r) {b : UInt8}
    (hb : b ≠ 0x7d) : Splits (b :: bs) (b :: r.1, r.2) := by
  constructor
  · rw [h.1]
    rfl
  · intro hm
    rcases List.mem_cons.mp hm with he | hm
    · exact hb he.symm
    · exact h.2 hm

theorem splits_spanDigits (bs : List UInt8) : Splits bs (spanDigits bs) := by
  induction bs with
  | nil => exact splits_nil []
  | cons b bs ih =>
    unfold spanDigits at ih ⊢
    by_cases hb : isDigit b = true
    · have hne : b ≠ 0x7d := by
        rintro rfl
        contradiction
      simpa [hb] using ih.cons hne
    · simpa [hb] using splits_nil (b :: bs)

theorem splits_spanMinus (bs : List UInt8) : Splits bs (spanMinus bs) := by
  unfold spanMinus
  split
  · exact (splits_nil _).cons (by decide)
  · exact splits_nil bs

theorem splits_spanFraction (bs : List UInt8) : Splits bs (spanFraction bs) := by
  unfold spanFraction
  split
  · exact (splits_spanDigits _).cons (by decide)
  · exact splits_nil bs

theorem splits_spanSignedDigits (bs : List UInt8) : Splits bs (spanSignedDigits bs) := by
  unfold spanSignedDigits
  split
  · split
    · rename_i hb
      apply (splits_spanDigits _).cons
      rcases hb with rfl | rfl <;> decide
    · exact splits_spanDigits _
  · exact splits_nil []

theorem splits_spanExponent (bs : List UInt8) : Splits bs (spanExponent bs) := by
  unfold spanExponent
  split
  · split
    · rename_i hb
      apply (splits_spanSignedDigits _).cons
      rcases hb with rfl | rfl <;> decide
    · exact splits_nil _
  · exact splits_nil []

/-- There is no closing brace in a number. -/
theorem splits_spanNumber (bs : List UInt8) :
    Splits bs ((spanNumber bs).1, (spanNumber bs).2.2) := by
  have minus := splits_spanMinus bs
  have whole := splits_spanDigits (spanMinus bs).2
  have fraction := splits_spanFraction (spanDigits (spanMinus bs).2).2
  have exponent := splits_spanExponent (spanFraction (spanDigits (spanMinus bs).2).2).2
  constructor
  · simp only [spanNumber, List.append_assoc]
    rw [← exponent.1, ← fraction.1, ← whole.1, ← minus.1]
  · simp only [spanNumber, List.mem_append, not_or]
    exact ⟨⟨⟨minus.2, whole.2⟩, fraction.2⟩, exponent.2⟩

theorem spanNumber_ne_nil {b : UInt8} (hb : b = 0x2d ∨ isDigit b = true) (bs : List UInt8) :
    (spanNumber (b :: bs)).1 ≠ [] := by
  by_cases hm : b = 0x2d
  · subst hm
    simp [spanNumber, spanMinus]
  · have hd := hb.resolve_left hm
    simp [spanNumber, spanMinus, spanDigits, hm, hd]

end Spans

/-- Nothing is left of a text, or it ends in a closing brace. -/
def Closed (bs : List UInt8) : Prop := bs = [] ∨ bs.getLast? = some 0x7d

theorem Closed.suffix {bs rest : List UInt8} (h : Closed bs) (hs : rest <:+ bs) : Closed rest := by
  obtain ⟨front, rfl⟩ := hs
  by_cases hr : rest = []
  · exact .inl hr
  · right
    rcases h with hn | hl
    · simp [hr] at hn
    · rwa [List.getLast?_append, List.getLast?_eq_some_getLast hr, Option.some_or,
        ← List.getLast?_eq_some_getLast hr] at hl

theorem suffix_scanLiteral {ws bs rest : List UInt8} (h : scanLiteral ws bs = .ok rest) :
    rest <:+ bs := by
  induction ws generalizing bs with
  | nil =>
    cases h
    exact List.suffix_refl rest
  | cons w ws ih =>
    cases bs with
    | nil => contradiction
    | cons b bs =>
      rw [scanLiteral] at h
      split at h
      · exact (ih h).trans (List.suffix_cons b bs)
      · contradiction

theorem suffix_scanUnicode {found found' bs rest : List UInt8}
    (h : scanUnicode found bs = .ok (found', rest)) : rest <:+ bs := by
  unfold scanUnicode at h
  split at h
  · split at h
    · split at h
      · cases h
        exact ⟨[_, _, _, _, _, _, _, _, _, _], rfl⟩
      · contradiction
    · cases h
      exact ⟨[_, _, _, _], rfl⟩
  · contradiction

theorem suffix_scanString {found bs body rest : List UInt8} {escapes escapes' : Bool}
    (h : scanString found escapes bs = .ok (body, escapes', rest)) : rest <:+ bs := by
  fun_induction scanString found escapes bs with
  | case1 => contradiction
  | case2 =>
    cases h
    exact List.suffix_cons _ _
  | case3 => contradiction
  | case4 => contradiction
  | case5 =>
    rename_i hs ih
    have := (ih h).trans (suffix_scanUnicode hs)
    exact this.trans ⟨[_, _], rfl⟩
  | case6 =>
    rename_i ih
    exact (ih h).trans ⟨[_, _], rfl⟩
  | case7 =>
    rename_i ih
    exact (ih h).trans (List.suffix_cons _ _)

theorem splits_scanNumber {pos pos' : Nat} {b : UInt8} {bs rest : List UInt8} {l : Lexeme}
    (hb : b = 0x2d ∨ isDigit b = true) (h : scanNumber pos (b :: bs) = .ok (l, pos', rest)) :
    ∃ text, Splits bs (text, rest) ∧ b ≠ 0x7d := by
  simp only [scanNumber] at h
  split at h
  · contradiction
  · cases h
    have hs := splits_spanNumber (b :: bs)
    obtain ⟨c, text, ht⟩ := List.exists_cons_of_ne_nil (spanNumber_ne_nil hb bs)
    rw [ht] at hs
    obtain ⟨hbs, hbrace⟩ := hs
    obtain ⟨rfl, hrest⟩ := List.cons.inj hbs
    simp only [List.mem_cons, not_or] at hbrace
    exact ⟨text, ⟨hrest, hbrace.2⟩, Ne.symm hbrace.1⟩

/-- Every lexeme is taken from the front, and if it is a number there is no closing brace in it. -/
theorem splits_scan {pos pos' : Nat} {b : UInt8} {bs rest : List UInt8} {l : Lexeme}
    (h : scan pos b bs = .ok (l, pos', rest)) :
    rest <:+ bs ∧ (l.isNumber = true → ∃ text, Splits bs (text, rest) ∧ b ≠ 0x7d) := by
  have plain {l : Lexeme} (hl : l.isNumber = false) {rest : List UInt8} (hs : rest <:+ bs) :
      rest <:+ bs ∧ (l.isNumber = true → ∃ text, Splits bs (text, rest) ∧ b ≠ 0x7d) := by
    refine ⟨hs, fun hn => ?_⟩
    rw [hl] at hn
    contradiction
  by_cases hp : ∃ l, (b, l) ∈ punctuation
  · obtain ⟨l', hl⟩ := hp
    rw [scan_punctuation hl] at h
    cases h
    refine plain ?_ (List.suffix_refl bs)
    simp only [punctuation, List.mem_cons, Prod.mk.injEq, List.not_mem_nil, or_false] at hl
    rcases hl with ⟨-, rfl⟩ | ⟨-, rfl⟩ | ⟨-, rfl⟩ | ⟨-, rfl⟩ | ⟨-, rfl⟩ | ⟨-, rfl⟩ <;> rfl
  simp only [punctuation, List.mem_cons, Prod.mk.injEq, List.not_mem_nil, or_false, exists_or,
    exists_eq_right, not_or] at hp
  obtain ⟨h7b, h7d, h5b, h5d, h3a, h2c⟩ := hp
  unfold scan at h
  rw [if_neg h7b, if_neg h7d, if_neg h5b, if_neg h5d, if_neg h3a, if_neg h2c] at h
  by_cases h22 : b = 0x22
  · rw [if_pos h22] at h
    cases hs : scanString [] false bs with
    | error e =>
      rw [hs] at h
      contradiction
    | ok r =>
      rw [hs] at h
      cases h
      exact plain rfl (suffix_scanString hs)
  rw [if_neg h22] at h
  have literal {ws : List UInt8} {l' : Lexeme} {n : Nat} (hl : l'.isNumber = false)
      (h : (do return (l', n, ← scanLiteral ws bs) : Except LexError _) = .ok (l, pos', rest)) :
      rest <:+ bs ∧ (l.isNumber = true → ∃ text, Splits bs (text, rest) ∧ b ≠ 0x7d) := by
    cases hs : scanLiteral ws bs with
    | error e =>
      rw [hs] at h
      contradiction
    | ok r =>
      rw [hs] at h
      cases h
      exact plain hl (suffix_scanLiteral hs)
  split at h
  · exact literal rfl h
  split at h
  · exact literal rfl h
  split at h
  · exact literal rfl h
  split at h
  · rename_i hb
    obtain ⟨text, ht, hne⟩ := splits_scanNumber hb h
    exact ⟨⟨text, ht.1.symm⟩, fun _ => ⟨text, ht, hne⟩⟩
  · contradiction

/-- Whatever is taken off a text that ends in a closing brace leaves such a text, and a number does
not take all of it. -/
theorem Closed.next {pos pos' : Nat} {bs rest : List UInt8} {l : Lexeme} (hc : Closed bs)
    (h : next pos bs = .ok (some (l, pos', rest))) :
    Closed rest ∧ rest.length < bs.length ∧ (l.isNumber = true → rest ≠ []) := by
  induction bs generalizing pos with
  | nil => simp [Json.next] at h
  | cons b bs ih =>
    rw [Json.next] at h
    have htail := List.suffix_cons b bs
    split at h
    · obtain ⟨hrest, hlen, hnumber⟩ := ih (hc.suffix htail) h
      exact ⟨hrest, Nat.lt_succ_of_lt hlen, hnumber⟩
    · cases hs : scan pos b bs with
      | error e =>
        rw [hs] at h
        contradiction
      | ok r =>
        rw [hs] at h
        cases h
        obtain ⟨hsuffix, hnumber⟩ := splits_scan hs
        refine ⟨hc.suffix (hsuffix.trans htail), Nat.lt_succ_of_le hsuffix.length_le, ?_⟩
        intro hn he
        subst he
        obtain ⟨text, ⟨htext, hbrace⟩, hne⟩ := hnumber hn
        rw [List.append_nil] at htext
        rcases hc with hnil | hlast
        · contradiction
        · have hm := List.mem_of_getLast? hlast
          rw [htext] at hm
          rcases List.mem_cons.mp hm with he | hm
          · exact hne he.symm
          · exact hbrace hm

/-- A reading finds at least what another one finds, and the same if the other one is complete. -/
structure Reading.Exceeds (r' r : Reading) : Prop where
  pieces : r.pieces <+: r'.pieces
  whole : r.fault = none → r' = r

theorem found_stays (fuel : Nat) (found : List Piece) (s : Stand) (pos : Nat) (bs : List UInt8) :
    found.reverse <+: (readFrom fuel found s pos bs).pieces := by
  induction fuel generalizing found s pos bs with
  | zero => exact List.prefix_refl _
  | succ fuel ih =>
    by_cases hd : s = .done
    · subst hd
      exact List.prefix_refl _
    rw [readFrom_succ hd]
    split
    · exact List.prefix_refl _
    · exact List.prefix_refl _
    · split
      · exact List.prefix_refl _
      · rename_i piece s' _
        refine List.IsPrefix.trans ?_ (ih _ s' _ _)
        rw [List.reverse_append]
        exact List.prefix_append _ _

/-- What follows a text that ends in a closing brace takes nothing away from what is found in it. -/
theorem exceeds_readFrom {bs : List UInt8} (hc : Closed bs) {fuel fuel' : Nat}
    (hf : bs.length < fuel) (more : List UInt8) (hf' : (bs ++ more).length < fuel')
    (found : List Piece) (s : Stand) (pos : Nat) :
    (readFrom fuel' found s pos (bs ++ more)).Exceeds (readFrom fuel found s pos bs) := by
  induction fuel generalizing fuel' bs found s pos with
  | zero => contradiction
  | succ fuel ih =>
    have fault {f : Fault} :
        (readFrom fuel' found s pos (bs ++ more)).Exceeds ⟨found.reverse, some f⟩ :=
      ⟨found_stays .., nofun⟩
    obtain _ | fuel' := fuel'
    · contradiction
    by_cases hd : s = .done
    · subst hd
      exact ⟨List.prefix_refl _, fun _ => rfl⟩
    rw [readFrom_succ hd fuel]
    cases hn : next pos bs with
    | error e => exact fault
    | ok r =>
      obtain _ | ⟨l, pos', rest⟩ := r
      · obtain ⟨f, hend⟩ := Option.ne_none_iff_exists'.mp (endFault_ne_none hd)
        rw [hend]
        exact fault
      · obtain ⟨hrest, hshort, hnumber⟩ := hc.next hn
        cases hl : s.lexeme l with
        | error f =>
          simp only [hl]
          exact fault
        | ok r =>
          obtain ⟨piece, s'⟩ := r
          have hmore := next_append hn hnumber more
          rw [readFrom_succ hd fuel', hmore]
          simp only [hl]
          apply ih hrest
          · omega
          · simp only [List.length_append] at hf' ⊢
            omega

end LockTrace.Json
