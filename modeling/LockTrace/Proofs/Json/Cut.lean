import LockTrace.Proofs.Json.Reading

namespace LockTrace.Json

/-- Inside of a container the reader does not stand at the outermost value. -/
def Stand.inside : Stand → Prop
  | .at _ frames => frames ≠ []
  | .behindKey _ frames => frames ≠ []
  | .done => True

theorem inside_behindValue (frames : List Frame) : (Stand.behindValue frames).inside := by
  cases frames with
  | nil => trivial
  | cons f frames => cases f <;> exact List.cons_ne_nil _ _

theorem inside_asValue {t : Token} {frames : List Frame} {piece : Option Piece} {s : Stand}
    (h : t.asValue frames = .ok (piece, s)) : s.inside := by
  unfold Token.asValue at h
  split at h
  · cases h
    exact List.cons_ne_nil _ _
  · cases h
    exact List.cons_ne_nil _ _
  · split at h
    · cases h
      exact inside_behindValue frames
    · contradiction

theorem inside_at {t : Token} {frames : List Frame} {place : Place} {piece : Option Piece}
    {s : Stand} (hf : frames ≠ []) (h : t.at frames place = .ok (piece, s)) : s.inside := by
  unfold Token.at at h
  split at h
  all_goals first
    | contradiction
    | exact inside_asValue h
    | (cases h; first | exact inside_behindValue _ | exact hf)

theorem inside_lexeme {s s' : Stand} {l : Lexeme} {piece : Option Piece} (hs : s.inside)
    (h : s.lexeme l = .ok (piece, s')) : s'.inside := by
  cases s with
  | done =>
    cases h
    trivial
  | behindKey k frames =>
    simp only [Stand.lexeme] at h
    split at h
    · cases h
      exact hs
    · contradiction
  | «at» place frames =>
    simp only [Stand.lexeme] at h
    split at h
    · contradiction
    · exact inside_at hs h

theorem behindValue_ne_done {frames : List Frame} (hf : frames ≠ []) :
    Stand.behindValue frames ≠ .done := by
  cases frames with
  | nil => contradiction
  | cons f frames => cases f <;> exact Stand.noConfusion

theorem token_number {l : Lexeme} {t : Token} (hl : l.isNumber = true) (h : l.token = .ok t) :
    (∃ x, t.scalar? = some x) ∧ ∀ s, t ≠ .string s := by
  cases l with
  | number start stop text form =>
    cases form with
    | unsigned =>
      simp only [Lexeme.token, readWhole] at h
      split_ifs at h <;> cases h <;> exact ⟨⟨_, rfl⟩, fun _ => Token.noConfusion⟩
    | signed =>
      simp only [Lexeme.token, readNegative] at h
      split_ifs at h <;> cases h <;> exact ⟨⟨_, rfl⟩, fun _ => Token.noConfusion⟩
    | float =>
      simp only [Lexeme.token] at h
      cases hr : readReal text with
      | error e =>
        rw [hr] at h
        contradiction
      | ok x =>
        rw [hr] at h
        cases h
        exact ⟨⟨_, rfl⟩, fun _ => Token.noConfusion⟩
  | _ => contradiction

theorem at_number {t : Token} {x : Scalar} (ht : t.scalar? = some x) (hs : ∀ s, t ≠ .string s)
    {place : Place} {frames : List Frame} {piece : Option Piece} {s' : Stand}
    (h : t.at frames place = .ok (piece, s')) :
    piece = some (.scalar x) ∧ s' = .behindValue frames := by
  cases place with
  | value | itemOrEnd =>
    rw [at_scalar (by trivial) ht] at h
    cases h
    exact ⟨rfl, rfl⟩
  | keyOrEnd | memberEnd | itemEnd =>
    cases t with
    | string s => exact absurd rfl (hs s)
    | _ => contradiction

/-- A number is one piece, and inside of a container it does not complete the outermost value. -/
theorem lexeme_number {s s' : Stand} {l : Lexeme} {piece : Option Piece} (hs : s.inside)
    (hd : s ≠ .done) (hl : l.isNumber = true) (h : s.lexeme l = .ok (piece, s')) :
    (∃ x, piece = some (.scalar x)) ∧ s' ≠ .done := by
  cases s with
  | done => contradiction
  | behindKey k frames =>
    simp only [Stand.lexeme] at h
    split at h
    · rename_i hc
      subst hc
      contradiction
    · contradiction
  | «at» place frames =>
    simp only [Stand.lexeme] at h
    split at h
    · contradiction
    · rename_i t ht
      obtain ⟨⟨x, hx⟩, hn⟩ := token_number hl ht
      obtain ⟨rfl, rfl⟩ := at_number hx hn h
      exact ⟨⟨x, rfl⟩, behindValue_ne_done hs⟩

theorem endFault_ne_none {s : Stand} (h : s ≠ .done) : s.endFault ≠ none := by
  cases s with
  | done => contradiction
  | «at» | behindKey => exact Option.some_ne_none _

theorem asValue_ne_none {t : Token} {frames : List Frame} {s : Stand} :
    t.asValue frames ≠ .ok (none, s) := by
  unfold Token.asValue
  split
  · simp
  · simp
  · split <;> simp

/-- Without a piece the outermost value is not completed. -/
theorem ne_done_of_none {s s' : Stand} {l : Lexeme} (hd : s ≠ .done)
    (h : s.lexeme l = .ok (none, s')) : s' ≠ .done := by
  cases s with
  | done => contradiction
  | behindKey k frames =>
    simp only [Stand.lexeme] at h
    split at h <;> cases h
  | «at» place frames =>
    simp only [Stand.lexeme] at h
    split at h
    · contradiction
    · unfold Token.at at h
      split at h
      all_goals first
        | contradiction
        | exact absurd h asValue_ne_none
        | (cases h; done)
        | (cases h; exact Stand.noConfusion)

theorem Reads.ne_nil {s : Stand} {bs rest : List UInt8} {ps : List Piece}
    (h : Reads s bs ps .done rest) (hd : s ≠ .done) : ps ≠ [] := by
  generalize hlast : Stand.done = last at h
  induction h with
  | nil s bs => exact absurd hlast.symm hd
  | @cons s s' s'' bs bs' bs'' piece ps h t ih =>
    cases piece with
    | some p => exact List.cons_ne_nil _ _
    | none =>
      obtain ⟨l, pos', _, hl⟩ := h.step 0
      exact ih (ne_done_of_none hd hl) hlast

/-- The next lexeme fits in nowhere or has no value. -/
structure Jams (s : Stand) (bs : List UInt8) : Prop where
  goesOn : s ≠ .done
  stuck : ∀ pos, ∃ l pos' rest f, next pos bs = .ok (some (l, pos', rest)) ∧ s.lexeme l = .error f

/-- Why the reader comes to no end, and the pieces that it would have to find until then: the text
was cut, or it has a number without a value. -/
inductive Stops (back : List UInt8) : Stand → List UInt8 → List Piece → Prop
  | cut (hb : back ≠ []) : Stops back .done [] []
  | jam {s : Stand} {bs : List UInt8} (h : Jams s bs) :
      Stops back s bs [.scalar .null, .objectEnd]

/-- What is found in a text that breaks off: its first pieces, but not all of them, and perhaps a
number that was cut. -/
def Torn (ps qs : List Piece) : Prop :=
  ∃ (front back : List Piece) (x : Option Scalar),
    back ≠ [] ∧ ps = front ++ back ∧ qs = front ++ (x.map Piece.scalar).toList

theorem torn_nil {ps : List Piece} (h : ps ≠ []) : Torn ps [] :=
  ⟨[], ps, none, h, rfl, rfl⟩

theorem torn_number {ps : List Piece} (h : ps ≠ []) (x : Scalar) : Torn ps [.scalar x] :=
  ⟨[], ps, some x, h, rfl, rfl⟩

theorem Torn.append {ps qs : List Piece} (h : Torn ps qs) (as : List Piece) :
    Torn (as ++ ps) (as ++ qs) := by
  obtain ⟨front, back, x, hb, rfl, rfl⟩ := h
  exact ⟨as ++ front, back, x, hb, by simp, by simp⟩

theorem Torn.length_le {ps qs : List Piece} (h : Torn ps qs) : qs.length ≤ ps.length := by
  obtain ⟨front, back, x, hb, rfl, rfl⟩ := h
  have := List.length_pos_iff.mpr hb
  cases x <;> simp only [List.length_append, Option.map_none, Option.map_some, Option.toList,
    List.length_nil, List.length_singleton] <;> omega

theorem Torn.take {ps qs : List Piece} (h : Torn ps qs) (n : Nat) : Torn ps (qs.take n) := by
  obtain ⟨front, back, x, hb, rfl, rfl⟩ := h
  rw [List.take_append]
  by_cases hn : n ≤ front.length
  · rw [Nat.sub_eq_zero_of_le hn, List.take_zero, List.append_nil]
    refine ⟨front.take n, front.drop n ++ back, none, by simp [hb], ?_, by simp⟩
    rw [← List.append_assoc, List.take_append_drop]
  · have hx : ((x.map Piece.scalar).toList).take (n - front.length) =
        (x.map Piece.scalar).toList := by
      apply List.take_of_length_le
      cases x with
      | none => exact Nat.zero_le _
      | some x =>
        simp only [Option.map_some, Option.toList, List.length_singleton]
        omega
    rw [hx, List.take_of_length_le (by omega)]
    exact ⟨front, back, x, hb, rfl, rfl⟩

/-- Pieces torn from two lists in a row are torn from the first one or go on behind it. -/
theorem Torn.append_cases {as ps qs : List Piece} (h : Torn (as ++ ps) qs) (hp : ps ≠ []) :
    Torn as qs ∨ ∃ qs', qs = as ++ qs' ∧ Torn ps qs' := by
  obtain ⟨front, back, x, hb, he, rfl⟩ := h
  rcases List.append_eq_append_iff.mp he with ⟨cs, rfl, rfl⟩ | ⟨cs, rfl, rfl⟩
  · right
    exact ⟨cs ++ (x.map Piece.scalar).toList, by simp, cs, back, x, hb, rfl, rfl⟩
  · obtain _ | ⟨c, cs⟩ := cs
    · right
      exact ⟨(x.map Piece.scalar).toList, by simp, [], ps, x, hp, by simp, rfl⟩
    · left
      exact ⟨front, c :: cs, x, List.cons_ne_nil _ _, rfl, rfl⟩

theorem torn_singleton {p : Piece} {qs : List Piece} (h : Torn [p] qs) :
    qs = [] ∨ ∃ x, qs = [.scalar x] := by
  obtain ⟨front, back, x, hb, he, rfl⟩ := h
  have hf : front = [] := by
    have hl := congrArg List.length he
    have := List.length_pos_iff.mpr hb
    simp only [List.length_append, List.length_singleton] at hl
    exact List.length_eq_zero_iff.mp (by omega)
  subst hf
  cases x with
  | none => exact Or.inl rfl
  | some x => exact Or.inr ⟨x, rfl⟩

/-- Some more of the text is there, but nothing of it after a number. -/
theorem readFrom_number {s : Stand} {l : Lexeme} {front : List UInt8} {pos pos' : Nat}
    (hs : s.inside) (hd : s ≠ .done) (hn : next pos front = .ok (some (l, pos', [])))
    (hl : l.isNumber = true) {fuel : Nat} (hf : front.length < fuel) (found : List Piece)
    {ps : List Piece} (hp : ps ≠ []) :
    ∃ f qs, readFrom fuel found s pos front = ⟨found.reverse ++ qs, some f⟩ ∧ Torn ps qs := by
  obtain _ | _ | fuel := fuel
  · contradiction
  · obtain rfl := List.length_eq_zero_iff.mp (by omega : front.length = 0)
    simp [next] at hn
  · rw [readFrom_succ hd, hn]
    simp only
    cases hx : s.lexeme l with
    | error f => exact ⟨f, [], by simp, torn_nil hp⟩
    | ok r =>
      obtain ⟨piece, s'⟩ := r
      obtain ⟨⟨x, rfl⟩, hd'⟩ := lexeme_number hs hd hl hx
      obtain ⟨f, hf'⟩ := Option.ne_none_iff_exists'.mp (endFault_ne_none hd')
      refine ⟨f, [.scalar x], ?_, torn_number hp x⟩
      simp only [readFrom_succ hd', next, hf']
      simp

/-- Either the next lexeme is the one that the whole text has there, or the reading ends here. -/
theorem readFrom_next {s : Stand} (hs : s.inside) (hd : s ≠ .done) (front back : List UInt8)
    (pos : Nat) {fuel : Nat} (hf : front.length < fuel) (found : List Piece) {ps : List Piece}
    (hp : ps ≠ []) :
    (∃ f qs, readFrom fuel found s pos front = ⟨found.reverse ++ qs, some f⟩ ∧ Torn ps qs) ∨
      ∃ l pos' rest piece s', next pos front = .ok (some (l, pos', rest)) ∧
        s.lexeme l = .ok (piece, s') ∧
        next pos (front ++ back) = .ok (some (l, pos', rest ++ back)) := by
  obtain _ | fuel := fuel
  · contradiction
  cases hn : next pos front with
  | error e =>
    left
    refine ⟨.lexical e, [], ?_, torn_nil hp⟩
    simp [readFrom_succ hd, hn]
  | ok r =>
    obtain _ | ⟨l, pos', rest⟩ := r
    · left
      obtain ⟨f, hend⟩ := Option.ne_none_iff_exists'.mp (endFault_ne_none hd)
      refine ⟨f, [], ?_, torn_nil hp⟩
      simp [readFrom_succ hd, hn, hend]
    · by_cases hc : l.isNumber = true ∧ rest = []
      · obtain ⟨hnum, rfl⟩ := hc
        exact Or.inl (readFrom_number hs hd hn hnum hf found hp)
      · cases hl : s.lexeme l with
        | error f =>
          left
          refine ⟨f, [], ?_, torn_nil hp⟩
          simp [readFrom_succ hd, hn, hl]
        | ok r =>
          right
          obtain ⟨piece, s'⟩ := r
          exact ⟨l, pos', rest, piece, s', rfl, hl,
            next_append hn (fun hnum hr => hc ⟨hnum, hr⟩) back⟩

theorem Reads.expected_ne_nil {s s' : Stand} {bs back rest : List UInt8} {ps tail : List Piece}
    (h : Reads s bs ps s' rest) (hstop : Stops back s' rest tail) (hd : s ≠ .done) :
    ps ++ tail ≠ [] := by
  cases hstop with
  | cut hb =>
    rw [List.append_nil]
    exact h.ne_nil hd
  | jam hj => simp

theorem Reads.goesOn {s s' : Stand} {front back rest : List UInt8} {ps tail : List Piece}
    (h : Reads s (front ++ back) ps s' rest) (hstop : Stops back s' rest tail) : s ≠ .done := by
  rintro rfl
  cases h with
  | nil =>
    generalize hrest : front ++ back = bs at hstop
    cases hstop with
    | cut hb => exact hb (List.append_eq_nil_iff.mp hrest).2
    | jam hj => exact hj.goesOn rfl
  | cons h t => exact h.goesOn rfl

/-- A text that breaks off ends in a fault, and what is found in it is torn from what the whole
text has. -/
theorem Reads.readFrom_torn {s s' : Stand} {front back rest : List UInt8} {ps tail : List Piece}
    (h : Reads s (front ++ back) ps s' rest) (hstop : Stops back s' rest tail) (hs : s.inside)
    {fuel : Nat} (hf : front.length < fuel) (found : List Piece) (pos : Nat) :
    ∃ f qs, Json.readFrom fuel found s pos front = ⟨found.reverse ++ qs, some f⟩ ∧
      Torn (ps ++ tail) qs := by
  have hd := h.goesOn hstop
  generalize hbs : front ++ back = bs at h
  induction h generalizing front fuel found pos with
  | nil s bs =>
    rcases readFrom_next hs hd front back pos hf found (Reads.expected_ne_nil (.nil s bs) hstop hd)
      with ht | ⟨l, _, _, _, _, _, hl, hn⟩
    · exact ht
    · cases hstop with
      | cut hb => contradiction
      | jam hj =>
        obtain ⟨l', pos', rest', f, hn', hl'⟩ := hj.stuck pos
        rw [hbs, hn'] at hn
        cases hn
        rw [hl'] at hl
        contradiction
  | @cons s s' s'' bs bs' bs'' piece ps h t ih =>
    subst hbs
    rcases readFrom_next hs hd front back pos hf found
      (Reads.expected_ne_nil (.cons h t) hstop hd) with ht | ⟨l, pos', rest, piece', s₁, hn, hl, hw⟩
    · exact ht
    · obtain ⟨l₂, pos₂, hn₂, hl₂⟩ := h.step pos
      rw [hn₂] at hw
      cases hw
      rw [hl₂] at hl
      cases hl
      obtain _ | fuel := fuel
      · contradiction
      have hf' : rest.length < fuel := by
        have := h.shorter
        simp only [List.length_append] at this
        omega
      obtain ⟨f, qs, hr, hq⟩ := ih hstop (inside_lexeme hs hl₂) hf' (piece.toList ++ found) pos'
        (t.goesOn hstop) rfl
      refine ⟨f, piece.toList ++ qs, ?_, ?_⟩
      · rw [readFrom_succ hd, hn]
        simp only [hl₂, hr]
        cases piece <;> simp
      · rw [List.append_assoc]
        exact hq.append piece.toList

end LockTrace.Json
