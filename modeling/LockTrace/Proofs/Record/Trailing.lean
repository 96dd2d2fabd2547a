import LockTrace.Proofs.Json.Closed
import LockTrace.Proofs.Record.Acceptance

/-!
# What follows a record on its line

A record is complete with its closing brace, and nothing that follows the brace is looked at. A
second record behind it goes unnoticed, unless a line break stands before it.
-/

namespace LockTrace.Record

open Json (Blanks Closed Piece Reading Scalar)

section Pieces

variable {ps rest : List Piece}

theorem skip_append (h : skip ps = some rest) (more : List Piece) :
    skip (ps ++ more) = some (rest ++ more) := skipFrom_append h more

theorem readNode_append {found s : Option Scalar} (h : readNode found ps = .ok (s, rest))
    (more : List Piece) : readNode found (ps ++ more) = .ok (s, rest ++ more) := by
  fun_induction readNode found ps with
  | case1 | case3 | case5 | case7 => contradiction
  | case2 =>
    cases h
    rw [List.cons_append, readNode]
  | case4 found s' rest' ih =>
    rw [List.cons_append, List.cons_append, readNode, if_pos rfl]
    exact ih h
  | case6 found p ps hp rest' hs ih =>
    rw [List.cons_append, List.cons_append, readNode.eq_def]
    simp only [if_pos]
    split
    · rename_i hn
      rw [skip_append hs] at hn
      contradiction
    · rename_i hn
      rw [skip_append hs] at hn
      cases hn
      exact ih h
  | case8 found k ps hk rest' hs ih =>
    rw [List.cons_append, readNode.eq_def]
    simp only [if_neg hk]
    split
    · rename_i hn
      rw [skip_append hs] at hn
      contradiction
    · rename_i hn
      rw [skip_append hs] at hn
      cases hn
      exact ih h
  | case9 found p ps hkey hend ih =>
    rw [List.cons_append, readNode.eq_def]
    cases p with
    | objectEnd => exact absurd rfl hkey
    | key k => exact absurd rfl (hend k)
    | _ => exact ih h

theorem readScalar_append {m : Member} {x : Scalar} (h : readScalar m ps = .ok (x, rest))
    (more : List Piece) : readScalar m (ps ++ more) = .ok (x, rest ++ more) := by
  unfold readScalar at h
  split at h
  · cases h
    rfl
  · contradiction
  · split at h
    · contradiction
    · contradiction
    · rename_i hn
      cases h
      have := readNode_append hn more
      simp only [List.cons_append, readScalar, this]
  · contradiction

theorem eq_of_closeKind {k k' : Kind} (h : closeKind k ps = .ok (k', rest)) :
    ps = .objectEnd :: rest ∧ k' = k := by
  unfold closeKind at h
  split at h
  · cases h
    exact ⟨rfl, rfl⟩
  · contradiction
  · contradiction

theorem readKindBody_append {k k' : Kind} (h : readKindBody k ps = .ok (k', rest))
    (more : List Piece) : readKindBody k (ps ++ more) = .ok (k', rest ++ more) := by
  unfold readKindBody at h
  split at h
  · obtain ⟨rfl, rfl⟩ := eq_of_closeKind h
    rfl
  · contradiction
  · contradiction
  · obtain ⟨rfl, rfl⟩ := eq_of_closeKind h
    rfl

theorem readKind_append {k : Kind} (h : readKind ps = .ok (k, rest)) (more : List Piece) :
    readKind (ps ++ more) = .ok (k, rest ++ more) := by
  unfold readKind at h
  split at h
  · rename_i s ps
    cases hk : kindNamed s with
    | error e =>
      rw [hk] at h
      contradiction
    | ok k' =>
      rw [hk] at h
      cases h
      simp only [List.cons_append, readKind, hk]
      rfl
  · contradiction
  · contradiction
  · split at h
    · contradiction
    · rename_i hk
      simp only [List.cons_append, readKind, hk]
      exact readKindBody_append h more
  · contradiction
  · contradiction

theorem readMember_append {d d' : Draft} {m : Member} (h : d.readMember ps m = .ok (d', rest))
    (more : List Piece) : d.readMember (ps ++ more) m = .ok (d', rest ++ more) := by
  have scalar {α : Type} {f : Scalar → Except Mismatch α} {put : α → Draft}
      (h : (readScalar m ps >>= fun r => f r.1 >>= fun x => pure (put x, r.2)) = .ok (d', rest)) :
      (readScalar m (ps ++ more) >>= fun r => f r.1 >>= fun x => pure (put x, r.2)) =
        .ok (d', rest ++ more) := by
    cases hx : readScalar m ps with
    | error e =>
      rw [hx] at h
      contradiction
    | ok r =>
      obtain ⟨x, rest'⟩ := r
      rw [hx] at h
      rw [readScalar_append hx more]
      change (f x >>= fun y => pure (put y, rest')) = _ at h
      change (f x >>= fun y => pure (put y, rest' ++ more)) = _
      cases hf : f x with
      | error e =>
        rw [hf] at h
        contradiction
      | ok y =>
        rw [hf] at h
        cases h
        rfl
  cases m with
  | kind =>
    simp only [Draft.readMember] at h ⊢
    cases hk : readKind ps with
    | error e =>
      rw [hk] at h
      contradiction
    | ok r =>
      rw [hk] at h
      cases h
      rw [readKind_append hk more]
      rfl
  | time | tid | lock => exact scalar h

/-- Pieces behind those that make a record are not looked at. -/
theorem readMembers_append {fuel fuel' : Nat} {d : Draft} {raw : Raw}
    (h : readMembers fuel d ps = .ok raw) (hf : fuel ≤ fuel') (more : List Piece) :
    readMembers fuel' d (ps ++ more) = .ok raw := by
  induction fuel generalizing fuel' d ps with
  | zero => contradiction
  | succ fuel ih =>
    obtain ⟨fuel', rfl⟩ : ∃ n, fuel' = n + 1 := ⟨fuel' - 1, by omega⟩
    have hle : fuel ≤ fuel' := by omega
    cases ps with
    | nil => contradiction
    | cons p ps =>
      cases p with
      | objectEnd => exact h
      | key k =>
        simp only [List.cons_append, readMembers] at h ⊢
        cases hk : Member.ofKey? k with
        | none =>
          simp only [hk] at h ⊢
          cases hs : skip ps with
          | none =>
            rw [hs] at h
            contradiction
          | some rest =>
            rw [hs] at h
            have hs' : skip (ps ++ more) = some (rest ++ more) := skipFrom_append hs more
            rw [hs']
            exact ih h hle
        | some m =>
          simp only [hk] at h ⊢
          split at h
          · contradiction
          · rename_i hd
            rw [if_neg hd]
            cases hr : d.readMember ps m with
            | error e =>
              rw [hr] at h
              contradiction
            | ok r =>
              obtain ⟨d', rest⟩ := r
              rw [hr] at h
              rw [readMember_append hr more]
              exact ih h hle
      | _ => contradiction

theorem readPieces_append {raw : Raw} (h : readPieces ps = .ok raw) (more : List Piece) :
    readPieces (ps ++ more) = .ok raw := by
  cases ps with
  | nil => contradiction
  | cons p ps =>
    cases p with
    | objectStart =>
      refine readMembers_append h ?_ more
      change ps.length ≤ (ps ++ more).length
      simp
    | _ => contradiction

end Pieces

/-- A consumer gets to see at least what it saw of a shorter reading. -/
theorem delivered_prefix {r r' : Reading} (h : r'.Exceeds r) :
    r.delivered.pieces <+: r'.delivered.pieces := by
  have hlength := h.pieces.length_le
  cases hf : r.fault with
  | none =>
    have he := h.whole hf
    subst he
    exact List.prefix_refl _
  | some f =>
    have hpieces : r.delivered.pieces =
        r.pieces.take (r.pieces.length / Json.batchSize * Json.batchSize) := by
      rw [Reading.delivered, hf]
    have hfew : r.delivered.pieces <+: r'.pieces := by
      rw [hpieces]
      exact (List.take_prefix _ _).trans h.pieces
    cases hf' : r'.fault with
    | none =>
      have hall : r'.delivered = r' := by rw [Reading.delivered, hf']
      rwa [hall]
    | some f' =>
      have hpieces' : r'.delivered.pieces =
          r'.pieces.take (r'.pieces.length / Json.batchSize * Json.batchSize) := by
        rw [Reading.delivered, hf']
      rw [hpieces', List.prefix_take_iff]
      refine ⟨hfew, ?_⟩
      rw [hpieces, List.length_take]
      have hbatches := Nat.div_le_div_right (c := Json.batchSize) hlength
      have := Nat.mul_le_mul_right Json.batchSize hbatches
      omega

theorem readDocument_ok {bs : List UInt8} {raw : Raw} :
    readDocument bs = .ok raw ↔ readPieces (Json.read bs).delivered.pieces = .ok raw := by
  simp only [readDocument]
  generalize (Json.read bs).delivered = r
  cases hp : readPieces r.pieces with
  | ok raw' => simp
  | error m => cases m <;> cases r.fault <;> simp

/-- A record that is complete with a closing brace is read whatever follows the brace. -/
theorem readDocument_append {bs : List UInt8} (hc : Closed bs) {raw : Raw}
    (h : readDocument bs = .ok raw) (more : List UInt8) : readDocument (bs ++ more) = .ok raw := by
  rw [readDocument_ok] at h ⊢
  have hexceeds : (Json.read (bs ++ more)).Exceeds (Json.read bs) :=
    Json.exceeds_readFrom hc (Nat.lt_succ_self _) more (Nat.lt_succ_self _) _ _ _
  obtain ⟨rest, hrest⟩ := delivered_prefix hexceeds
  rw [← hrest]
  exact readPieces_append h rest

theorem closed_encode (front : List Char) : Closed (Text.Utf8.encode (front ++ ['\x7d'])) := by
  right
  have := encode_closed front []
  rw [this]
  simp

theorem strip_brace (front : List Char) : strip (front ++ ['\x7d']) = front ++ ['\x7d'] := by
  simp [strip]

/-- What follows the closing brace of a record makes no difference, unless there is a line break in
it. -/
theorem decode_closed {front : List Char} {e : Event}
    (h : decode (String.ofList (front ++ ['\x7d'])) = .ok e) (back : List Char) :
    decode (String.ofList (front ++ '\x7d' :: back)) =
      if '\n' ∈ strip (front ++ '\x7d' :: back) then .error .severalRecords else .ok e := by
  obtain ⟨back', hstrip⟩ := strip_closed front back
  simp only [decode, String.toList_ofList, strip_brace] at h
  split at h
  · contradiction
  · split at h
    · contradiction
    · rename_i raw hr
      have hmore := readDocument_append (closed_encode front) hr (Text.Utf8.encode back')
      have hline : front ++ '\x7d' :: back' = (front ++ ['\x7d']) ++ back' := by simp
      rw [← Text.Utf8.encode_append, ← hline, ← hstrip] at hmore
      simp only [decode, String.toList_ofList, hmore]
      rw [h]

theorem exists_body (e : Event) : ∃ front, body e = front ++ ['\x7d'] := ⟨_, rfl⟩

theorem strip_ending (front : List Char) {ending : String} (h : ending ∈ ["", "\n", "\r\n"]) :
    strip (front ++ '\x7d' :: ending.toList) = front ++ ['\x7d'] := by
  simp only [List.mem_cons, List.not_mem_nil, or_false] at h
  rcases h with rfl | rfl | rfl
  · exact strip_brace front
  · simp [strip]
  · have hline : front ++ '\x7d' :: "\r\n".toList = (front ++ ['\x7d']) ++ ['\r', '\n'] := by simp
    rw [hline]
    exact strip_carriageReturn

/-- A record is read up to its closing brace, and a line is only refused for what follows if there
is a line break before its end. So of two records on one line the first is read, and with a line
break between them there is none. -/
theorem decode_first (e₁ e₂ : Event) (sep front back : List Char) :
    (∀ ending ∈ ["", "\n", "\r\n"],
      decode (String.ofList (body e₁ ++ sep ++ body e₂) ++ ending) =
        if '\n' ∈ sep then .error .severalRecords else .ok e₁) ∧
    ∀ e, decode (String.ofList (front ++ ['\x7d'])) = .ok e →
      decode (String.ofList (front ++ '\x7d' :: back)) =
        if '\n' ∈ strip (front ++ '\x7d' :: back) then .error .severalRecords else .ok e := by
  refine ⟨?_, fun e h => decode_closed h back⟩
  intro ending hending
  have h₁ := newline_not_mem_body e₁
  have h₂ := newline_not_mem_body e₂
  have hread := decode_body e₁
  obtain ⟨front₁, hf₁⟩ := exists_body e₁
  obtain ⟨front₂, hf₂⟩ := exists_body e₂
  have hline : String.ofList (body e₁ ++ sep ++ body e₂) ++ ending =
      String.ofList (front₁ ++ '\x7d' :: (sep ++ (front₂ ++ '\x7d' :: ending.toList))) := by
    apply String.toList_inj.mp
    simp [hf₁, hf₂]
  have hstrip : strip (front₁ ++ '\x7d' :: (sep ++ (front₂ ++ '\x7d' :: ending.toList))) =
      body e₁ ++ sep ++ body e₂ := by
    have := strip_ending (front₁ ++ '\x7d' :: (sep ++ front₂)) hending
    simpa [hf₁, hf₂] using this
  rw [hf₁] at hread
  rw [hline, decode_closed hread, hstrip]
  simp only [List.mem_append, h₁, h₂, false_or, or_false]

/-- The record of an acquisition. -/
def acquisition : Event := ⟨.acquired, ⟨1⟩, "1", ⟨"lost", by decide⟩⟩

/-- Two records with nothing between them, as when a line break was lost, are read as one. -/
theorem not_refused_joined : ¬ ∀ (e₁ e₂ : Event) (sep : List Char), Blanks sep →
    ∃ error, decode (String.ofList (body e₁ ++ sep ++ body e₂)) = .error error := by
  intro h
  obtain ⟨error, herror⟩ := h acquisition acquisition [] (by simp [Blanks])
  have hread := decode_body acquisition
  obtain ⟨front, hf⟩ := exists_body acquisition
  have hline : body acquisition ++ [] ++ body acquisition =
      front ++ '\x7d' :: body acquisition := by simp [hf]
  have hstrip : '\n' ∉ strip (front ++ '\x7d' :: body acquisition) := by
    obtain ⟨ds, hds, -⟩ := strip_append (front ++ '\x7d' :: body acquisition)
    intro hm
    have hall := List.mem_append_left ds hm
    rw [← hds, ← hline] at hall
    simp [newline_not_mem_body] at hall
  rw [hf] at hread
  rw [hline, decode_closed hread, if_neg hstrip] at herror
  contradiction

end LockTrace.Record
