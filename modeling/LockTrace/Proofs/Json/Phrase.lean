import LockTrace.Proofs.Json.Reading

namespace LockTrace.Json

theorem next_blanks {ws : List Char} (h : Blanks ws) (pos : Nat) (bs : List UInt8) :
    ∃ pos', next pos (Text.Utf8.encode ws ++ bs) = next pos' bs := by
  induction ws generalizing pos with
  | nil => exact ⟨pos, rfl⟩
  | cons c ws ih =>
    obtain ⟨b, hb, hs⟩ : ∃ b, String.utf8EncodeChar c = [b] ∧ isSpace b = true := by
      rcases h c (by simp) with rfl | rfl | rfl | rfl
      · exact ⟨0x20, by decide, rfl⟩
      · exact ⟨0x09, by decide, rfl⟩
      · exact ⟨0x0a, by decide, rfl⟩
      · exact ⟨0x0d, by decide, rfl⟩
    obtain ⟨pos', hp⟩ := ih (fun d hd => h d (by simp [hd])) (pos + 1)
    refine ⟨pos', ?_⟩
    rw [Text.Utf8.encode_cons, hb, List.singleton_append, List.cons_append, next, if_pos hs, hp]

/-- Blanks in front of a lexeme are passed over. -/
theorem Takes.blanks {s s' : Stand} {bs rest : List UInt8} {piece : Option Piece}
    (h : Takes s bs piece s' rest) {ws : List Char} (hw : Blanks ws) :
    Takes s (Text.Utf8.encode ws ++ bs) piece s' rest where
  goesOn := h.goesOn
  shorter := by
    have := h.shorter
    rw [List.length_append]
    omega
  step pos := by
    obtain ⟨pos', hp⟩ := next_blanks hw pos bs
    rw [hp]
    exact h.step pos'

theorem Reads.blanks {s s' : Stand} {bs rest : List UInt8} {ps : List Piece}
    (h : Reads s bs ps s' rest) (hp : ps ≠ []) {ws : List Char} (hw : Blanks ws) :
    Reads s (Text.Utf8.encode ws ++ bs) ps s' rest := by
  cases h with
  | nil => contradiction
  | cons h t => exact .cons (h.blanks hw) t

theorem ends_blanks {ws : List Char} (h : Blanks ws) {bs : List UInt8} (hb : Ends bs) :
    Ends (Text.Utf8.encode ws ++ bs) := by
  cases ws with
  | nil => exact hb
  | cons c ws =>
    rcases h c (by simp) with rfl | rfl | rfl | rfl
    · exact ends_cons (b := 0x20) (by decide)
    · exact ends_cons (b := 0x09) (by decide)
    · exact ends_cons (b := 0x0a) (by decide)
    · exact ends_cons (b := 0x0d) (by decide)

/-- An unsigned number as the reader keeps it. -/
def countScalar (n : Nat) : Scalar := if n < UInt64.size then .unsigned n else .text (toString n)

/-- The pieces of a phrase. -/
inductive Phrase.Pieces : Phrase → List Piece → Prop
  | plain (x : Scalar) : Pieces (.value .plain) [.scalar x]
  | text (s : String) : Pieces (.value (.text s)) [.scalar (.text s)]
  | count (n : Nat) : Pieces (.value (.count n)) [.scalar (countScalar n)]
  | negative (n : Nat) (x : Scalar) : Pieces (.value (.negative n)) [.scalar x]
  | array {vs : List Value} {ps : List Piece} (h : Pieces (.items vs) ps) :
      Pieces (.value (.array vs)) (.arrayStart :: ps)
  | object {ms : List (String × Value)} {ps : List Piece} (h : Pieces (.members ms) ps) :
      Pieces (.value (.object ms)) (.objectStart :: ps)
  | noItems : Pieces (.items []) [.arrayEnd]
  | moreItems {v : Value} {vs : List Value} {ps qs : List Piece} (h : Pieces (.value v) ps)
      (t : Pieces (.items vs) qs) : Pieces (.items (v :: vs)) (ps ++ qs)
  | noMembers : Pieces (.members []) [.objectEnd]
  | moreMembers {k : String} {v : Value} {ms : List (String × Value)} {ps qs : List Piece}
      (h : Pieces (.value v) ps) (t : Pieces (.members ms) qs) :
      Pieces (.members ((k, v) :: ms)) (.key k :: (ps ++ qs))

theorem Phrase.Pieces.ne_nil {v : Value} {ps : List Piece} (h : (Phrase.value v).Pieces ps) :
    ps ≠ [] := by
  cases h <;> exact List.cons_ne_nil _ _

/-- The reader gets through a text of a phrase and finds its pieces. -/
def Phrase.Readable (ws : List Char) : Phrase → Prop
  | .value v => v.Bounded → ∀ (frames : List Frame) (place : Place), place.takesValue →
      ∀ rest, Ends rest → ∃ ps, (Phrase.value v).Pieces ps ∧
        Reads (.at place frames) (Text.Utf8.encode ws ++ rest) ps (.behindValue frames) rest
  | .item v => v.Bounded → ∀ (frames : List Frame) (place : Place), place.takesValue →
      ∀ rest, Ends rest → ∃ ps bs, Blanks bs ∧ (Phrase.value v).Pieces ps ∧
        Reads (.at place frames) (Text.Utf8.encode ws ++ rest) ps (.behindValue frames)
          (Text.Utf8.encode bs ++ rest)
  | .items vs => (∀ v ∈ vs, v.Bounded) → ∀ (frames : List Frame) (rest : List UInt8),
      ∃ ps, (Phrase.items vs).Pieces ps ∧
        Reads (.at .itemOrEnd (.array :: frames)) (Text.Utf8.encode ws ++ 0x5d :: rest) ps
          (.behindValue frames) rest
  | .member k v => v.Bounded → ∀ (frames : List Frame) (rest : List UInt8), Ends rest →
      ∃ ps bs, Blanks bs ∧ (Phrase.value v).Pieces ps ∧
        Reads (.at .keyOrEnd (.object :: frames)) (Text.Utf8.encode ws ++ rest) (.key k :: ps)
          (.at .memberEnd (.object :: frames)) (Text.Utf8.encode bs ++ rest)
  | .members ms => (∀ m ∈ ms, m.2.Bounded) → ∀ (frames : List Frame) (rest : List UInt8),
      ∃ ps, (Phrase.members ms).Pieces ps ∧
        Reads (.at .keyOrEnd (.object :: frames)) (Text.Utf8.encode ws ++ 0x7d :: rest) ps
          (.behindValue frames) rest

section
variable {frames : List Frame} {place : Place} (hp : place.takesValue) {rest : List UInt8}

include hp in
theorem takes_literal {ws : List Char} (h : ws ∈ literals) (frames : List Frame)
    (rest : List UInt8) : ∃ x, Takes (.at place frames) (Text.Utf8.encode ws ++ rest)
      (some (.scalar x)) (.behindValue frames) rest := by
  obtain ⟨l, t, x, hl, ht, hx⟩ : ∃ l t x, (∀ pos, ∃ pos',
      next pos (Text.Utf8.encode ws ++ rest) = .ok (some (l, pos', rest))) ∧
      Lexeme.token l = .ok t ∧ t.scalar? = some x := by
    simp only [literals, List.mem_cons, List.not_mem_nil, or_false] at h
    rcases h with rfl | rfl | rfl
    · have he : Text.Utf8.encode ['n', 'u', 'l', 'l'] = [0x6e, 0x75, 0x6c, 0x6c] := by decide
      rw [he]
      exact ⟨.null, .null, .null, fun pos => ⟨pos + 4, rfl⟩, rfl, rfl⟩
    · have he : Text.Utf8.encode ['t', 'r', 'u', 'e'] = [0x74, 0x72, 0x75, 0x65] := by decide
      rw [he]
      exact ⟨.bool true, .bool true, .bool true, fun pos => ⟨pos + 4, rfl⟩, rfl, rfl⟩
    · have he : Text.Utf8.encode ['f', 'a', 'l', 's', 'e'] = [0x66, 0x61, 0x6c, 0x73, 0x65] := by
        decide
      rw [he]
      exact ⟨.bool false, .bool false, .bool false, fun pos => ⟨pos + 5, rfl⟩, rfl, rfl⟩
  refine ⟨x, Stand.noConfusion, ?_, ?_⟩
  · simp only [literals, List.mem_cons, List.not_mem_nil, or_false] at h
    have hne : ws ≠ [] := by
      rcases h with rfl | rfl | rfl <;> exact List.cons_ne_nil _ _
    have := List.length_pos_iff.mpr (encode_ne_nil hne)
    rw [List.length_append]
    omega
  · intro pos
    obtain ⟨pos', hn⟩ := hl pos
    refine ⟨l, pos', hn, ?_⟩
    simp only [Stand.lexeme, ht]
    exact at_scalar hp hx frames

include hp in
theorem takes_text {ws cs : List Char} (h : Chars ws cs) (frames : List Frame)
    (rest : List UInt8) :
    Takes (.at place frames) (Text.Utf8.encode ('\"' :: (ws ++ ['\"'])) ++ rest)
      (some (.scalar (.text (String.ofList cs)))) (.behindValue frames) rest := by
  have hq : String.utf8EncodeChar '\"' = [0x22] := by decide
  have ht := takes_string h.spells (at_scalar (t := .string (String.ofList cs)) hp rfl frames) rest
  simpa [hq] using ht

include hp in
/-- A number within bounds is a scalar, and an unsigned one is kept as it is. -/
theorem takes_count {n : Nat} (hn : n < 1 <<< 128) (frames : List Frame) (hr : Ends rest) :
    Takes (.at place frames) (digits n ++ rest) (some (.scalar (countScalar n)))
      (.behindValue frames) rest := by
  obtain ⟨t, ht, hs⟩ : ∃ t, readWhole (digits n) = .ok t ∧ t.scalar? = some (countScalar n) := by
    rw [readWhole_digits, countScalar]
    by_cases hs : n < UInt64.size
    · rw [if_pos hs, if_pos hs]
      exact ⟨_, rfl, rfl⟩
    · rw [if_neg hs, if_neg hs, if_pos hn]
      exact ⟨_, rfl, rfl⟩
  rw [← numeral_count] at ht ⊢
  exact takes_number (Or.inl rfl) .none .none (fun _ _ => ht) (at_scalar hp hs frames) hr

include hp in
theorem takes_negative {n : Nat} (hn : n ≤ 1 <<< 127) (frames : List Frame) (hr : Ends rest) :
    ∃ x, Takes (.at place frames) (numeral ['-'] n [] [] ++ rest) (some (.scalar x))
      (.behindValue frames) rest := by
  obtain ⟨t, x, ht, hs⟩ : ∃ t x, readNegative (numeral ['-'] n [] []) = .ok t ∧
      t.scalar? = some x := by
    have hd : (numeral ['-'] n [] []).drop 1 = digits n := by
      simp only [numeral, encode_minus]
      simp
    rw [readNegative, hd, digitsValue_digits]
    by_cases hs : n ≤ 1 <<< 63
    · simp only [if_pos hs]
      exact ⟨_, _, rfl, rfl⟩
    · simp only [if_neg hs, if_pos hn]
      exact ⟨_, _, rfl, rfl⟩
  exact ⟨x, takes_number (Or.inr rfl) .none .none (fun _ _ => ht) (at_scalar hp hs frames) hr⟩

include hp in
theorem takes_real {minus fraction exponent : List Char} (n : Nat)
    (hm : minus = [] ∨ minus = ['-']) (hf : Fraction fraction) (he : Exponent exponent)
    (hx : fraction ≠ [] ∨ exponent ≠ []) (frames : List Frame) (hr : Ends rest) :
    ∃ x, Takes (.at place frames) (numeral minus n fraction exponent ++ rest) (some (.scalar x))
      (.behindValue frames) rest := by
  obtain ⟨x, hread⟩ := exists_readReal n hm hf he
  have ht (start stop : Nat) : (Lexeme.number start stop (numeral minus n fraction exponent)
      (formOf minus fraction exponent)).token = .ok (.real x) := by
    rw [formOf, if_pos hx, Lexeme.token, hread]
    rfl
  exact ⟨.real x, takes_number hm hf he ht (at_scalar hp rfl frames) hr⟩

theorem numeral_eq_encode (minus : List Char) (n : Nat) (fraction exponent : List Char) :
    numeral minus n fraction exponent =
      Text.Utf8.encode (minus ++ Nat.toDigits 10 n ++ fraction ++ exponent) := by
  simp [numeral, digits]

end

section
variable {ws : List Char} (hw : Blanks ws) (frames : List Frame) (rest : List UInt8)

include hw in
theorem reads_closing {frame : Frame} {place : Place} {b : UInt8} {l : Lexeme} {p : Piece}
    (h : (b, l) ∈ punctuation)
    (hl : (Stand.at place (frame :: frames)).lexeme l = .ok (some p, .behindValue frames)) :
    Reads (.at place (frame :: frames)) (Text.Utf8.encode ws ++ b :: rest) [p]
      (.behindValue frames) rest :=
  ((takes_punctuation h Stand.noConfusion hl rest).blanks hw).reads

include hw in
theorem reads_separator {frame : Frame} {place next : Place}
    (hl : (Stand.at place (frame :: frames)).lexeme .comma =
      .ok (none, .at next (frame :: frames))) :
    Reads (.at place (frame :: frames)) (Text.Utf8.encode ws ++ 0x2c :: rest) []
      (.at next (frame :: frames)) rest :=
  ((takes_punctuation (l := .comma) (by decide) Stand.noConfusion hl rest).blanks hw).reads

end

theorem lexeme_arrayStart {place : Place} (hp : place.takesValue) (frames : List Frame) :
    (Stand.at place frames).lexeme .arrayStart =
      .ok (some .arrayStart, .at .itemOrEnd (.array :: frames)) := by
  cases place with
  | value | itemOrEnd => rfl
  | keyOrEnd | memberEnd | itemEnd => contradiction

theorem lexeme_objectStart {place : Place} (hp : place.takesValue) (frames : List Frame) :
    (Stand.at place frames).lexeme .objectStart =
      .ok (some .objectStart, .at .keyOrEnd (.object :: frames)) := by
  cases place with
  | value | itemOrEnd => rfl
  | keyOrEnd | memberEnd | itemEnd => contradiction

/-- A key and the colon behind it. -/
theorem reads_name {as ks cs bs : List Char} (ha : Blanks as) (hk : Chars ks cs) (hb : Blanks bs)
    (frames : List Frame) (rest : List UInt8) :
    Reads (.at .keyOrEnd frames)
      (Text.Utf8.encode (as ++ '\"' :: (ks ++ '\"' :: (bs ++ [':']))) ++ rest)
      [.key (String.ofList cs)] (.at .value frames) rest := by
  have hq : String.utf8EncodeChar '\"' = [0x22] := by decide
  have hc : String.utf8EncodeChar ':' = [0x3a] := by decide
  have hname : Takes (.at .keyOrEnd frames)
      (0x22 :: (Text.Utf8.encode ks ++ 0x22 :: (Text.Utf8.encode bs ++ 0x3a :: rest))) none
      (.behindKey (String.ofList cs) frames) (Text.Utf8.encode bs ++ 0x3a :: rest) :=
    takes_string hk.spells rfl _
  have hcolon : Takes (.behindKey (String.ofList cs) frames) (0x3a :: rest)
      (some (.key (String.ofList cs))) (.at .value frames) rest :=
    takes_punctuation (l := .colon) (by decide) Stand.noConfusion rfl rest
  have hr := (hname.blanks ha).reads.append (hcolon.blanks hb).reads
  simpa [hq, hc] using hr

theorem encode_bracketed (ws : List Char) (rest : List UInt8) :
    Text.Utf8.encode ('[' :: (ws ++ [']'])) ++ rest =
      0x5b :: (Text.Utf8.encode ws ++ 0x5d :: rest) := by
  have hl : String.utf8EncodeChar '[' = [0x5b] := by decide
  have hr : String.utf8EncodeChar ']' = [0x5d] := by decide
  simp [hl, hr]

theorem encode_braced (ws : List Char) (rest : List UInt8) :
    Text.Utf8.encode ('\x7b' :: (ws ++ ['\x7d'])) ++ rest =
      0x7b :: (Text.Utf8.encode ws ++ 0x7d :: rest) := by
  have hl : String.utf8EncodeChar '\x7b' = [0x7b] := by decide
  have hr : String.utf8EncodeChar '\x7d' = [0x7d] := by decide
  simp [hl, hr]

theorem encode_listed (ws ws' : List Char) (rest : List UInt8) :
    Text.Utf8.encode (ws ++ ',' :: ws') ++ rest =
      Text.Utf8.encode ws ++ 0x2c :: (Text.Utf8.encode ws' ++ rest) := by
  have hc : String.utf8EncodeChar ',' = [0x2c] := by decide
  simp [hc]

/-- Every text of a phrase can be read if no integer in it is out of bounds. -/
theorem Phrase.Text.readable {p : Phrase} {ws : List Char} (h : p.Text ws) : p.Readable ws := by
  induction h with
  | literal h =>
    intro _ frames place hp rest _
    obtain ⟨x, ht⟩ := takes_literal hp h frames rest
    exact ⟨_, .plain x, ht.reads⟩
  | text h =>
    intro _ frames place hp rest _
    exact ⟨_, .text _, (takes_text hp h frames rest).reads⟩
  | count n =>
    intro hv frames place hp rest hr
    cases hv with
    | count hn => exact ⟨_, .count n, (takes_count hp hn frames hr).reads⟩
  | negative n =>
    intro hv frames place hp rest hr
    cases hv with
    | negative hn =>
      obtain ⟨x, ht⟩ := takes_negative hp hn frames hr
      rw [numeral_eq_encode] at ht
      simp only [List.append_nil] at ht
      exact ⟨_, .negative n x, ht.reads⟩
  | real n hm hf he hx =>
    intro _ frames place hp rest hr
    obtain ⟨x, ht⟩ := takes_real hp n hm hf he hx frames hr
    rw [numeral_eq_encode] at ht
    exact ⟨_, .plain x, ht.reads⟩
  | array h ih =>
    intro hv frames place hp rest _
    cases hv with
    | array hvs =>
      obtain ⟨ps, hps, ht⟩ := ih hvs frames rest
      refine ⟨_, .array hps, ?_⟩
      rw [encode_bracketed]
      exact .cons (takes_punctuation (l := .arrayStart) (by decide) Stand.noConfusion
        (lexeme_arrayStart hp frames) _) ht
  | object h ih =>
    intro hv frames place hp rest _
    cases hv with
    | object hms =>
      obtain ⟨ps, hps, ht⟩ := ih hms frames rest
      refine ⟨_, .object hps, ?_⟩
      rw [encode_braced]
      exact .cons (takes_punctuation (l := .objectStart) (by decide) Stand.noConfusion
        (lexeme_objectStart hp frames) _) ht
  | item ha h hb ih =>
    intro hv frames place hp rest hr
    obtain ⟨ps, hps, ht⟩ := ih hv frames place hp _ (ends_blanks hb hr)
    refine ⟨ps, _, hb, hps, ?_⟩
    rw [Text.Utf8.encode_append, Text.Utf8.encode_append, List.append_assoc, List.append_assoc]
    exact ht.blanks hps.ne_nil ha
  | noItems hb =>
    intro _ frames rest
    exact ⟨_, .noItems, reads_closing hb frames rest (l := .arrayEnd) (by decide) rfl⟩
  | lastItem h ih =>
    intro hv frames rest
    obtain ⟨ps, bs, hb, hps, ht⟩ := ih (hv _ (List.mem_cons_self ..)) (.array :: frames)
      .itemOrEnd trivial (0x5d :: rest) (ends_cons (by decide))
    exact ⟨_, .moreItems hps .noItems, ht.append (reads_closing hb frames rest (l := .arrayEnd)
      (by decide) rfl)⟩
  | moreItems hvs h t ihv iht =>
    intro hv frames rest
    obtain ⟨qs, hqs, hq⟩ := iht (fun v hm => hv v (List.mem_cons_of_mem _ hm)) frames rest
    obtain ⟨ps, bs, hb, hps, ht⟩ := ihv (hv _ (List.mem_cons_self ..)) (.array :: frames)
      .itemOrEnd trivial (0x2c :: _) (ends_cons (by decide))
    refine ⟨_, .moreItems hps hqs, ?_⟩
    rw [encode_listed]
    exact ht.append ((reads_separator hb frames _ rfl).append hq)
  | member ha hk hb h ih =>
    intro hv frames rest hr
    obtain ⟨ps, cs, hc, hps, ht⟩ := ih hv (.object :: frames) .value trivial rest hr
    refine ⟨ps, cs, hc, hps, ?_⟩
    have hname := (reads_name ha hk hb (.object :: frames) _).append ht
    simp only [List.append_assoc, List.cons_append, List.nil_append,
      Text.Utf8.encode_append, Text.Utf8.encode_cons, Text.Utf8.encode_nil] at hname ⊢
    exact hname
  | noMembers hb =>
    intro _ frames rest
    exact ⟨_, .noMembers, reads_closing hb frames rest (l := .objectEnd) (by decide) rfl⟩
  | lastMember h ih =>
    intro hm frames rest
    obtain ⟨ps, bs, hb, hps, ht⟩ := ih (hm _ (List.mem_cons_self ..)) frames (0x7d :: rest)
      (ends_cons (by decide))
    exact ⟨_, .moreMembers hps .noMembers, ht.append (reads_closing hb frames rest (l := .objectEnd)
      (by decide) rfl)⟩
  | moreMembers hms h t ihm iht =>
    intro hm frames rest
    obtain ⟨qs, hqs, hq⟩ := iht (fun m hm' => hm m (List.mem_cons_of_mem _ hm')) frames rest
    obtain ⟨ps, bs, hb, hps, ht⟩ := ihm (hm _ (List.mem_cons_self ..)) frames (0x2c :: _)
      (ends_cons (by decide))
    refine ⟨_, .moreMembers hps hqs, ?_⟩
    rw [encode_listed]
    exact ht.append ((reads_separator hb frames _ rfl).append hq)

end LockTrace.Json
