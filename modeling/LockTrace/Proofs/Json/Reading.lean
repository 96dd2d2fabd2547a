import LockTrace.Json.Piece
import LockTrace.Proofs.Json.Lexeme
import LockTrace.Proofs.Json.Numbers

namespace LockTrace.Json

/-- From where it stands the reader takes a lexeme off the text, wherever the text stands. -/
structure Takes (s : Stand) (bs : List UInt8) (piece : Option Piece) (s' : Stand)
    (rest : List UInt8) : Prop where
  goesOn : s ≠ .done
  shorter : rest.length < bs.length
  step : ∀ pos, ∃ l pos', next pos bs = .ok (some (l, pos', rest)) ∧ s.lexeme l = .ok (piece, s')

/-- The reader takes lexemes off the text one by one and finds these pieces. -/
inductive Reads : Stand → List UInt8 → List Piece → Stand → List UInt8 → Prop
  | nil (s : Stand) (bs : List UInt8) : Reads s bs [] s bs
  | cons {s s' s'' : Stand} {bs bs' bs'' : List UInt8} {piece : Option Piece} {ps : List Piece}
      (h : Takes s bs piece s' bs') (t : Reads s' bs' ps s'' bs'') :
      Reads s bs (piece.toList ++ ps) s'' bs''

theorem Takes.reads {s s' : Stand} {bs rest : List UInt8} {piece : Option Piece}
    (h : Takes s bs piece s' rest) : Reads s bs piece.toList s' rest := by
  have hr := Reads.cons h (.nil s' rest)
  rwa [List.append_nil] at hr

theorem Reads.append {s s' s'' : Stand} {bs bs' bs'' : List UInt8} {ps qs : List Piece}
    (h : Reads s bs ps s' bs') (t : Reads s' bs' qs s'' bs'') :
    Reads s bs (ps ++ qs) s'' bs'' := by
  induction h with
  | nil => exact t
  | cons h _ ih =>
    rw [List.append_assoc]
    exact .cons h (ih t)

theorem readFrom_succ {s : Stand} (hs : s ≠ .done) (fuel : Nat) (found : List Piece) (pos : Nat)
    (bs : List UInt8) :
    readFrom (fuel + 1) found s pos bs =
      match next pos bs with
      | .error e => ⟨found.reverse, some (.lexical e)⟩
      | .ok none => ⟨found.reverse, s.endFault⟩
      | .ok (some (l, pos, rest)) =>
        match s.lexeme l with
        | .error f => ⟨found.reverse, some f⟩
        | .ok (piece, s') => readFrom fuel (piece.toList ++ found) s' pos rest := by
  cases s with
  | done => contradiction
  | «at» | behindKey => rfl

/-- A text that can be read to its end gives its pieces and no fault. -/
theorem Reads.readFrom {s : Stand} {bs rest : List UInt8} {ps : List Piece}
    (h : Reads s bs ps .done rest) {fuel : Nat} (hf : bs.length < fuel) (found : List Piece)
    (pos : Nat) : readFrom fuel found s pos bs = ⟨found.reverse ++ ps, none⟩ := by
  generalize he : Stand.done = last at h
  induction h generalizing fuel found pos with
  | nil s bs =>
    subst he
    cases fuel with
    | zero => contradiction
    | succ fuel => simp [Json.readFrom]
  | @cons s s' s'' bs bs' bs'' piece ps h t ih =>
    cases fuel with
    | zero => contradiction
    | succ fuel =>
      obtain ⟨l, pos', hn, hl⟩ := h.step pos
      have hf' : bs'.length < fuel := by
        have := h.shorter
        omega
      rw [readFrom_succ h.goesOn, hn]
      simp only [hl]
      rw [ih hf' _ _ he]
      cases piece <;> simp

/-- The places where a value may come. -/
def Place.takesValue : Place → Prop
  | .value | .itemOrEnd => True
  | _ => False

theorem at_scalar {place : Place} (hp : place.takesValue) {t : Token} {x : Scalar}
    (ht : t.scalar? = some x) (frames : List Frame) :
    t.at frames place = .ok (some (.scalar x), .behindValue frames) := by
  cases place with
  | value | itemOrEnd => cases t <;> cases ht <;> rfl
  | keyOrEnd | memberEnd | itemEnd => contradiction

theorem next_punctuation {b : UInt8} {l : Lexeme} (h : (b, l) ∈ punctuation) (pos : Nat)
    (bs : List UInt8) : next pos (b :: bs) = .ok (some (l, pos + 1, bs)) := by
  have hb : isSpace b = false := by
    simp only [punctuation, List.mem_cons, Prod.mk.injEq, List.not_mem_nil, or_false] at h
    rcases h with ⟨rfl, _⟩ | ⟨rfl, _⟩ | ⟨rfl, _⟩ | ⟨rfl, _⟩ | ⟨rfl, _⟩ | ⟨rfl, _⟩ <;> rfl
  simp [next, hb, scan_punctuation h, Except.map]

theorem takes_punctuation {s s' : Stand} {b : UInt8} {l : Lexeme} {piece : Option Piece}
    (h : (b, l) ∈ punctuation) (hs : s ≠ .done) (hl : s.lexeme l = .ok (piece, s'))
    (bs : List UInt8) : Takes s (b :: bs) piece s' bs where
  goesOn := hs
  shorter := Nat.lt_succ_self _
  step pos := ⟨l, pos + 1, next_punctuation h pos bs, hl⟩

theorem reads_comma (frames : List Frame) (bs : List UInt8) :
    Reads (.at .memberEnd frames) (0x2c :: bs) [] (.at .keyOrEnd frames) bs := by
  have ht : Takes (.at .memberEnd frames) (0x2c :: bs) none (.at .keyOrEnd frames) bs :=
    takes_punctuation (l := .comma) (by simp [punctuation]) Stand.noConfusion rfl bs
  exact ht.reads

theorem reads_objectEnd (frames : List Frame) (bs : List UInt8) :
    Reads (.at .memberEnd frames) (0x7d :: bs) [.objectEnd] (.behindEnd frames) bs := by
  have ht : Takes (.at .memberEnd frames) (0x7d :: bs) (some .objectEnd) (.behindEnd frames) bs :=
    takes_punctuation (l := .objectEnd) (by simp [punctuation]) Stand.noConfusion rfl bs
  exact ht.reads

theorem next_string {body : List UInt8} (h : Inside body) (pos : Nat) (bs : List UInt8) :
    next pos (0x22 :: (body ++ 0x22 :: bs)) =
      .ok (some (.string (pos + 1) (pos + 1 + body.length) body (body.contains 0x5c),
        pos + 1 + body.length + 1, bs)) := by
  have hs := scanString_inside h [] false bs
  simp only [List.reverse_nil, List.nil_append, Bool.false_or] at hs
  have hsp : isSpace 0x22 = false := rfl
  rw [next, hsp]
  simp only [scan, hs]
  rfl

theorem takes_string {frames : List Frame} {place : Place} {s' : Stand} {body : List UInt8}
    {cs : List Char} {piece : Option Piece} (h : Spells body cs)
    (hl : (Token.string (String.ofList cs)).at frames place = .ok (piece, s'))
    (bs : List UInt8) : Takes (.at place frames) (0x22 :: (body ++ 0x22 :: bs)) piece s' bs where
  goesOn := Stand.noConfusion
  shorter := by simp only [List.length_cons, List.length_append]; omega
  step pos := by
    refine ⟨_, _, next_string h.inside pos bs, ?_⟩
    simp only [Stand.lexeme, Lexeme.token, readString_spells h]
    exact hl

theorem encode_quote (s : String) :
    Text.Utf8.encode (quote s) = 0x22 :: (Text.Utf8.encode (escape s.toList) ++ [0x22]) := by
  have hq : String.utf8EncodeChar '"' = [0x22] := by decide
  simp [quote, hq]

theorem reads_key (k : String) (frames : List Frame) (bs : List UInt8) :
    Reads (.at .keyOrEnd frames) (Text.Utf8.encode (quote k) ++ 0x3a :: bs) [.key k]
      (.at .value frames) bs := by
  have hk : Takes (.at .keyOrEnd frames) (Text.Utf8.encode (quote k) ++ 0x3a :: bs) none
      (.behindKey k frames) (0x3a :: bs) := by
    rw [encode_quote, List.cons_append, List.append_assoc, List.singleton_append]
    exact takes_string (spells_escape k.toList) (by rw [String.ofList_toList]; rfl) _
  have hc : Takes (.behindKey k frames) (0x3a :: bs) (some (.key k)) (.at .value frames) bs :=
    takes_punctuation (l := .colon) (by simp [punctuation]) Stand.noConfusion rfl bs
  exact hk.reads.append hc.reads

theorem reads_text (s : String) (frames : List Frame) (bs : List UInt8) :
    Reads (.at .value frames) (Text.Utf8.encode (quote s) ++ bs) [.scalar (.text s)]
      (.behindValue frames) bs := by
  have ht : Takes (.at .value frames) (Text.Utf8.encode (quote s) ++ bs) (some (.scalar (.text s)))
      (.behindValue frames) bs := by
    rw [encode_quote, List.cons_append, List.append_assoc, List.singleton_append]
    exact takes_string (spells_escape s.toList) (by rw [String.ofList_toList]; rfl) bs
  exact ht.reads

theorem takes_number {frames : List Frame} {place : Place} {s' : Stand} {piece : Option Piece}
    {minus fraction exponent : List Char} {n : Nat} {t : Token}
    (hm : minus = [] ∨ minus = ['-']) (hf : Fraction fraction) (he : Exponent exponent)
    (ht : ∀ start stop, (Lexeme.number start stop (numeral minus n fraction exponent)
      (formOf minus fraction exponent)).token = .ok t)
    (hl : t.at frames place = .ok (piece, s')) {rest : List UInt8} (hr : Ends rest) :
    Takes (.at place frames) (numeral minus n fraction exponent ++ rest) piece s' rest where
  goesOn := Stand.noConfusion
  shorter := by
    obtain ⟨b, bs, hb, -⟩ := exists_numeral fraction exponent n hm
    rw [hb, List.length_append, List.length_cons]
    omega
  step pos := by
    refine ⟨_, _, next_numeral n hm hf he pos hr, ?_⟩
    simp only [Stand.lexeme, ht]
    exact hl

theorem reads_count {n : Nat} (hn : n < UInt64.size) (frames : List Frame) {rest : List UInt8}
    (hr : Ends rest) :
    Reads (.at .value frames) (digits n ++ rest) [.scalar (.unsigned n)]
      (.behindValue frames) rest := by
  have ht : Takes (.at .value frames) (numeral [] n [] [] ++ rest) (some (.scalar (.unsigned n)))
      (.behindValue frames) rest := by
    apply takes_number (t := .unsigned n) (Or.inl rfl) .none .none _ rfl hr
    intro start stop
    change readWhole (numeral [] n [] []) = _
    rw [numeral_count, readWhole_digits, if_pos hn]
  rw [numeral_count] at ht
  exact ht.reads

/-- The brace in front of an object opens it. -/
theorem read_object (bs : List UInt8) : read (0x7b :: bs) =
    readFrom (bs.length + 1) [.objectStart] (.at .keyOrEnd [.object]) 1 bs := by
  rw [read, List.length_cons, readFrom_succ Stand.noConfusion,
    next_punctuation (l := .objectStart) (by simp [punctuation])]
  rfl

end LockTrace.Json
