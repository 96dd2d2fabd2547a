import LockTrace.Proofs.Json.Cut
import LockTrace.Proofs.Json.Phrase

namespace LockTrace.Json

theorem Jams.blanks {s : Stand} {bs : List UInt8} (h : Jams s bs) {ws : List Char}
    (hw : Blanks ws) : Jams s (Text.Utf8.encode ws ++ bs) where
  goesOn := h.goesOn
  stuck pos := by
    obtain ⟨pos', hp⟩ := next_blanks hw pos bs
    rw [hp]
    exact h.stuck pos'

/-- The reader has no value for an unsigned number beyond 128 bits. -/
theorem jams_count {n : Nat} (hn : 1 <<< 128 ≤ n) (place : Place) (frames : List Frame)
    {rest : List UInt8} (hr : Ends rest) : Jams (.at place frames) (digits n ++ rest) where
  goesOn := Stand.noConfusion
  stuck pos := by
    have hnext := next_numeral n (Or.inl rfl) .none .none pos hr
    rw [numeral_count] at hnext
    refine ⟨_, _, _, .lexical .malformed, hnext, ?_⟩
    have hlarge : ¬ n < UInt64.size := by
      have : UInt64.size < 1 <<< 128 := by decide
      omega
    have ht (start stop : Nat) :
        (Lexeme.number start stop (digits n) (formOf [] [] [])).token = .error .malformed := by
      change readWhole (digits n) = _
      rw [readWhole_digits, if_neg hlarge, if_neg (Nat.not_lt.mpr hn)]
    simp only [Stand.lexeme, ht]

theorem member_jams {k : String} {n : Nat} {ws : List Char}
    (h : (Phrase.member k (.count n)).Text ws) (hn : 1 <<< 128 ≤ n) (frames : List Frame)
    {rest : List UInt8} (hr : Ends rest) :
    ∃ bs, Reads (.at .keyOrEnd frames) (Text.Utf8.encode ws ++ rest) [.key k]
      (.at .value frames) bs ∧ Jams (.at .value frames) bs := by
  cases h with
  | @member _ as ks cs bs _ ha hk hb h =>
    cases h with
    | @item _ front _ back hf h hback =>
      cases h with
      | count =>
        have hname := reads_name ha hk hb frames (Text.Utf8.encode front ++
          (digits n ++ (Text.Utf8.encode back ++ rest)))
        refine ⟨_, ?_, (jams_count hn .value frames (ends_blanks hback hr)).blanks hf⟩
        simp only [List.append_assoc, List.nil_append, Text.Utf8.encode_append,
          Text.Utf8.encode_cons, Text.Utf8.encode_nil] at hname ⊢
        exact hname

/-- Among the members of an object the reader gets as far as a number without a value. The pieces
that it finds until then are those of an object with any other scalar in place of the number. -/
def JamsAmong (ms : List (String × Value)) (s : Stand) (bs : List UInt8) : Prop :=
  ∃ front k v ps s' rest, front ++ [(k, v)] <+: ms ∧
    (Phrase.members (front ++ [(k, .plain)])).Pieces (ps ++ [.scalar .null, .objectEnd]) ∧
    Reads s bs ps s' rest ∧ Jams s' rest

theorem jamsAmong_first {k : String} {v : Value} {ms : List (String × Value)} {ws : List Char}
    (h : (Phrase.member k v).Text ws) (hc : v.Bounded ∨ ∃ n, v = .count n) (hv : ¬ v.Bounded)
    (frames : List Frame) {rest : List UInt8} (hr : Ends rest) :
    JamsAmong ((k, v) :: ms) (.at .keyOrEnd frames) (Text.Utf8.encode ws ++ rest) := by
  obtain ⟨n, rfl⟩ := hc.resolve_left hv
  have hn : 1 <<< 128 ≤ n := by
    by_contra hn
    exact hv (.count (Nat.lt_of_not_le hn))
  obtain ⟨rest', ht, hj⟩ := member_jams h hn frames hr
  have hp : (Phrase.members [(k, .plain)]).Pieces [.key k, .scalar .null, .objectEnd] :=
    .moreMembers (.plain .null) .noMembers
  exact ⟨[], k, _, [.key k], _, _, ⟨ms, rfl⟩, hp, ht, hj⟩

theorem JamsAmong.cons {ms : List (String × Value)} {s s' : Stand} {bs bs' : List UInt8}
    (h : JamsAmong ms s' bs') {k : String} {v : Value} {ps : List Piece}
    (hp : (Phrase.value v).Pieces ps) (hr : Reads s bs (.key k :: ps) s' bs') :
    JamsAmong ((k, v) :: ms) s bs := by
  obtain ⟨front, k', v', qs, s'', rest, ⟨back, hback⟩, hq, ht, hj⟩ := h
  refine ⟨(k, v) :: front, k', v', _, s'', rest, ⟨back, by simp [← hback]⟩, ?_, hr.append ht, hj⟩
  have := Phrase.Pieces.moreMembers (k := k) hp hq
  simpa using this

/-- A number that is too large is found among the members of its object. -/
theorem jamsAmong {ms : List (String × Value)} {ws : List Char}
    (h : (Phrase.members ms).Text ws) (hc : ∀ m ∈ ms, m.2.Bounded ∨ ∃ n, m.2 = .count n)
    (hb : ¬ ∀ m ∈ ms, m.2.Bounded) (frames : List Frame) (rest : List UInt8) :
    JamsAmong ms (.at .keyOrEnd (.object :: frames)) (Text.Utf8.encode ws ++ 0x7d :: rest) := by
  generalize hp : Phrase.members ms = p at h
  induction h generalizing ms with
  | noMembers =>
    cases hp
    simp at hb
  | lastMember h =>
    cases hp
    exact jamsAmong_first h (hc _ (List.mem_cons_self ..)) (by simpa using hb) _
      (ends_cons (by decide))
  | moreMembers hms h t _ ih =>
    cases hp
    rw [encode_listed]
    rename_i k v ms' ws ws' _
    by_cases hv : v.Bounded
    · obtain ⟨ps, bs, hbs, hps, hread⟩ := h.readable hv frames (0x2c :: _) (ends_cons (by decide))
      have hcomma : Reads (.at .memberEnd (.object :: frames)) _ []
          (.at .keyOrEnd (.object :: frames)) _ :=
        reads_separator hbs frames (Text.Utf8.encode ws' ++ 0x7d :: rest) rfl
      have hmember := hread.append hcomma
      rw [List.append_nil] at hmember
      refine JamsAmong.cons (ih (fun m hm => hc m (List.mem_cons_of_mem _ hm)) ?_ rfl) hps hmember
      simpa [hv] using hb
    · exact jamsAmong_first h (hc _ (List.mem_cons_self ..)) hv _ (ends_cons (by decide))
  | _ => cases hp

end LockTrace.Json
