import LockTrace.Proofs.Json.Cut
import LockTrace.Proofs.Record.RoundTrip

namespace LockTrace.Record

theorem delivered_of_short {r : Json.Reading} (hf : r.fault ≠ none)
    (hl : r.pieces.length < Json.batchSize) :
    ∃ f, r.delivered.fault = some f ∧ r.delivered.pieces = [] := by
  obtain ⟨f, hf⟩ := Option.ne_none_iff_exists'.mp hf
  refine ⟨f, ?_, ?_⟩
  · rw [Json.Reading.delivered, hf]
  · rw [Json.Reading.delivered, hf]
    simp [Nat.div_eq_of_lt hl]

/-- No piece of a record is delivered unless its closing brace is there. -/
theorem readDocument_cut {e : Event} {front back : List UInt8}
    (h : Text.Utf8.encode (body e) = front ++ back) (hb : back ≠ []) :
    ∃ f, readDocument front = .error (.fault f) := by
  have ⟨hfault, hlen⟩ : (Json.read front).fault ≠ none ∧
      (Json.read front).pieces.length < Json.batchSize := by
    rw [encode_body] at h
    cases front with
    | nil => exact ⟨Option.some_ne_none _, by decide⟩
    | cons b front =>
      obtain ⟨rfl, hm⟩ := List.cons.inj h
      have hr : Json.Reads _ (front ++ back) _ _ _ := hm ▸ reads_members e
      have ⟨f, ps, hf, ht⟩ := hr.readFrom_torn (.cut hb) (List.cons_ne_nil _ _)
        (Nat.lt_succ_self _) [.objectStart] 1
      have hl : ps.length ≤ 9 := ht.length_le
      rw [Json.read_object, hf]
      refine ⟨Option.some_ne_none f, ?_⟩
      simp only [Json.batchSize, List.length_append, List.length_reverse, List.length_singleton]
      omega
  obtain ⟨f, hf, hp⟩ := delivered_of_short hfault hlen
  refine ⟨f, ?_⟩
  simp only [readDocument, hp, hf, readPieces]

/-- A record that lacks its last characters is refused. -/
theorem decode_take (e : Event) {n : Nat} (hn : n < (body e).length) :
    ∃ f, decode (String.ofList ((body e).take n)) = .error (.unreadable (.fault f)) := by
  have hle : ∀ c ∈ (body e).take n, 0x20 ≤ c.toNat :=
    fun c hc => le_of_mem_body (List.mem_of_mem_take hc)
  have hline : '\n' ∉ (body e).take n := by
    intro hm
    have := hle _ hm
    contradiction
  have hsplit : Text.Utf8.encode (body e) =
      Text.Utf8.encode ((body e).take n) ++ Text.Utf8.encode ((body e).drop n) := by
    rw [← Text.Utf8.encode_append, List.take_append_drop]
  have hback : Text.Utf8.encode ((body e).drop n) ≠ [] := by
    cases hd : (body e).drop n with
    | nil =>
      have := List.drop_eq_nil_iff.mp hd
      omega
    | cons c cs => simp [String.utf8EncodeChar_ne_nil]
  obtain ⟨f, hf⟩ := readDocument_cut hsplit hback
  refine ⟨f, ?_⟩
  simp only [decode, String.toList_ofList, strip_of_le hle, if_neg hline, hf]

/-- A stream of records as one text. -/
def stream (es : List Event) : List Char := es.flatMap fun e => body e ++ ['\n']

theorem toList_join_encode (es : List Event) :
    (String.join (es.map encode)).toList = stream es := by
  rw [String.toList_join, List.flatMap_map]
  simp only [encode, String.toList_ofList]
  rfl

theorem stream_take_of_le (e : Event) (es : List Event) {n : Nat} (h : n ≤ (body e).length) :
    (stream (e :: es)).take n = (body e).take n := by
  rw [stream, List.flatMap_cons, List.append_assoc, List.take_append_of_le_length h]

theorem stream_take_of_lt (e : Event) (es : List Event) {n : Nat} (h : (body e).length < n) :
    (stream (e :: es)).take n =
      body e ++ '\n' :: (stream es).take (n - (body e).length - 1) := by
  obtain ⟨k, rfl⟩ : ∃ k, n = (body e).length + (k + 1) := ⟨n - (body e).length - 1, by omega⟩
  rw [stream, List.flatMap_cons, List.append_assoc, List.take_length_add_append]
  simp only [List.singleton_append, List.take_succ_cons]
  rw [Nat.add_sub_cancel_left, Nat.add_sub_cancel]
  rfl

/-- What stands behind the last line break of a cut stream, where the next record would be: nothing,
that record without its line break, or a text that is refused. -/
inductive Tail (next : Option Event) (fragment : List Char) : Prop
  | empty (h : fragment = [])
  | whole {e : Event} (h : next = some e) (hf : encode e = String.ofList fragment ++ "\n")
      (hd : decode (String.ofList fragment) = .ok e)
  | refused {error : LineError} (h : decode (String.ofList fragment) = .error error)

theorem decode_empty : decode "" = .error (.unreadable (.fault (.ended .value))) := by
  rfl

theorem tail_nil (next : Option Event) :
    Tail next [] ∧ ∀ e, decode (String.ofList []) = .ok e → next = some e := by
  refine ⟨.empty rfl, fun e h => ?_⟩
  have := decode_empty.symm.trans h
  contradiction

theorem tail_take (e : Event) (n : Nat) :
    Tail (some e) ((body e).take n) ∧
      ∀ e', decode (String.ofList ((body e).take n)) = .ok e' → some e = some e' := by
  by_cases hn : n < (body e).length
  · obtain ⟨f, hf⟩ := decode_take e hn
    refine ⟨.refused hf, fun e' h => ?_⟩
    rw [hf] at h
    contradiction
  · rw [List.take_of_length_le (Nat.le_of_not_lt hn)]
    refine ⟨.whole rfl (encode_eq_append e) (decode_body e), fun e' h => ?_⟩
    · rw [decode_body] at h
      cases h
      rfl

/-- However a stream is cut off, the lines that are complete are its first records, and what is
left of the next one is that record or none at all. -/
theorem decode_cut (es : List Event) (n : Nat) :
    ∃ k ≤ es.length, ∃ lines fragment,
      ((String.join (es.map encode)).toList.take n).splitOn '\n' = lines ++ [fragment] ∧
      lines.map (fun line => decode (String.ofList line)) = (es.take k).map .ok ∧
      Tail es[k]? fragment ∧
      ∀ e, decode (String.ofList fragment) = .ok e → es[k]? = some e := by
  rw [toList_join_encode]
  induction es generalizing n with
  | nil =>
    refine ⟨0, Nat.le_refl 0, [], [], ?_, rfl, tail_nil _⟩
    rw [stream, List.flatMap_nil, List.take_nil]
    rfl
  | cons e es ih =>
    by_cases hn : n ≤ (body e).length
    · have hline : '\n' ∉ (body e).take n :=
        fun hm => newline_not_mem_body e (List.mem_of_mem_take hm)
      refine ⟨0, Nat.zero_le _, [], (body e).take n, ?_, rfl, tail_take e n⟩
      rw [stream_take_of_le e es hn]
      exact List.splitOn_eq_singleton hline
    · obtain ⟨k, hk, lines, fragment, hs, hl, ht⟩ := ih (n - (body e).length - 1)
      refine ⟨k + 1, Nat.succ_le_succ hk, body e :: lines, fragment, ?_, ?_, ht⟩
      · rw [stream_take_of_lt e es (Nat.lt_of_not_le hn),
          List.splitOn_append_cons_self_of_not_mem (newline_not_mem_body e), hs]
        rfl
      · rw [List.map_cons, hl, decode_body]
        rfl

end LockTrace.Record
