import LockTrace.Text.Utf8
import Mathlib.Tactic.Common

namespace LockTrace.Text.Utf8

@[simp] theorem encode_nil : encode [] = [] := rfl

@[simp] theorem encode_cons (c : Char) (cs : List Char) :
    encode (c :: cs) = String.utf8EncodeChar c ++ encode cs := rfl

@[simp] theorem encode_append (as bs : List Char) :
    encode (as ++ bs) = encode as ++ encode bs := List.flatMap_append

theorem encodeChar_ascii {c : Char} (h : c.toNat < 0x80) :
    String.utf8EncodeChar c = [UInt8.ofNat c.toNat] := by
  have hv : c.val.toNat ≤ 0x7f := by change c.toNat ≤ 0x7f; omega
  simp only [String.utf8EncodeChar, hv, if_true]
  rfl

theorem encode_ascii {cs : List Char} (h : ∀ c ∈ cs, c.toNat < 0x80) :
    encode cs = cs.map fun c => UInt8.ofNat c.toNat := by
  induction cs with
  | nil => rfl
  | cons c cs ih =>
    rw [encode_cons, encodeChar_ascii (h c (by simp)), ih fun d hd => h d (by simp [hd])]
    rfl

/-- No byte of a longer character looks like a character of its own. -/
theorem le_of_mem_encodeChar {c : Char} (h : 0x80 ≤ c.toNat) {b : UInt8}
    (hb : b ∈ String.utf8EncodeChar c) : 0x80 ≤ b := by
  have hv : ¬ c.val.toNat ≤ 0x7f := by change ¬ c.toNat ≤ 0x7f; omega
  rw [UInt8.le_iff_toNat_le]
  simp only [String.utf8EncodeChar, hv, if_false] at hb
  split at hb
  · simp only [List.mem_cons, List.not_mem_nil, or_false] at hb
    rcases hb with rfl | rfl <;> simp only [UInt8.toNat_ofNat', UInt8.reduceToNat] <;> omega
  · split at hb
    · simp only [List.mem_cons, List.not_mem_nil, or_false] at hb
      rcases hb with rfl | rfl | rfl <;> simp only [UInt8.toNat_ofNat', UInt8.reduceToNat] <;> omega
    · simp only [List.mem_cons, List.not_mem_nil, or_false] at hb
      rcases hb with rfl | rfl | rfl | rfl <;>
        simp only [UInt8.toNat_ofNat', UInt8.reduceToNat] <;> omega

/-- A byte that spells a character by itself occurs in no other character. -/
theorem eq_of_mem_encodeChar {c k : Char} (hk : k.toNat < 0x80)
    (h : UInt8.ofNat k.toNat ∈ String.utf8EncodeChar c) : c = k := by
  by_cases hc : c.toNat < 0x80
  · rw [encodeChar_ascii hc, List.mem_singleton] at h
    have hn := congrArg UInt8.toNat h
    rw [UInt8.toNat_ofNat', UInt8.toNat_ofNat'] at hn
    exact Char.toNat_inj.mp (by omega)
  · have hl := le_of_mem_encodeChar (by omega) h
    simp only [UInt8.le_iff_toNat_le, UInt8.toNat_ofNat', UInt8.reduceToNat] at hl
    omega

private theorem width_eq (lead : UInt8) :
    width lead = if lead.toNat < 0x80 then 1 else if lead.toNat < 0xe0 then 2
      else if lead.toNat < 0xf0 then 3 else 4 := by
  simp only [width, UInt8.lt_iff_toNat_lt, UInt8.reduceToNat]

theorem toNat_lt (c : Char) : c.val.toNat < 0x110000 := by
  rcases c.valid with h | ⟨_, h⟩
  · change c.val.toNat < _ at h; omega
  · exact h

/-- The lead byte of a character tells how many bytes follow, and together they spell its
number. -/
theorem exists_lead (c : Char) : ∃ lead tail, String.utf8EncodeChar c = lead :: tail ∧
    tail.length = width lead - 1 ∧ codePoint lead tail = c.toNat := by
  have hc := toNat_lt c
  change ∃ lead tail, _ ∧ _ ∧ _ = c.val.toNat
  simp only [String.utf8EncodeChar]
  split
  · refine ⟨_, _, rfl, ?_, ?_⟩
    · rw [width_eq, UInt8.toNat_ofNat', if_pos (by omega)]
      rfl
    · simp only [codePoint, List.length_nil, List.foldl_nil, UInt8.toNat_ofNat']
      omega
  split
  · refine ⟨_, _, rfl, ?_, ?_⟩
    · rw [width_eq, UInt8.toNat_ofNat', if_neg (by omega), if_pos (by omega)]
      rfl
    · simp only [codePoint, List.length_cons, List.length_nil, List.foldl_cons, List.foldl_nil,
        UInt8.toNat_ofNat']
      omega
  split
  · refine ⟨_, _, rfl, ?_, ?_⟩
    · rw [width_eq, UInt8.toNat_ofNat', if_neg (by omega), if_neg (by omega), if_pos (by omega)]
      rfl
    · simp only [codePoint, List.length_cons, List.length_nil, List.foldl_cons, List.foldl_nil,
        UInt8.toNat_ofNat']
      omega
  · refine ⟨_, _, rfl, ?_, ?_⟩
    · rw [width_eq, UInt8.toNat_ofNat', if_neg (by omega), if_neg (by omega), if_neg (by omega)]
      rfl
    · simp only [codePoint, List.length_cons, List.length_nil, List.foldl_cons, List.foldl_nil,
        UInt8.toNat_ofNat']
      omega

theorem decodeChar?_encodeChar (c : Char) (rest : List UInt8) :
    decodeChar? (String.utf8EncodeChar c ++ rest) = some (c, rest) := by
  obtain ⟨lead, tail, he, hl, hp⟩ := exists_lead c
  have ht : (tail ++ rest).take (width lead - 1) = tail := by rw [← hl]; simp
  have hd : (tail ++ rest).drop (width lead - 1) = rest := by rw [← hl]; simp
  rw [he, List.cons_append, decodeChar?]
  simp only [ht, hd, hp, Char.ofNat_toNat, he, if_true]

theorem decodeFrom_encodeChar (found : List Char) (c : Char) (rest : List UInt8) :
    decodeFrom found (String.utf8EncodeChar c ++ rest) = decodeFrom (c :: found) rest := by
  have hne : (String.utf8EncodeChar c ++ rest).isEmpty = false := by
    simp [String.utf8EncodeChar_ne_nil]
  rw [decodeFrom, hne]
  split
  · contradiction
  · split
    · rename_i h
      rw [decodeChar?_encodeChar] at h
      contradiction
    · rename_i h
      rw [decodeChar?_encodeChar] at h
      cases h
      rfl

theorem decodeFrom_encode_append (found cs : List Char) (rest : List UInt8) :
    decodeFrom found (encode cs ++ rest) = decodeFrom (cs.reverse ++ found) rest := by
  induction cs generalizing found with
  | nil => rfl
  | cons c cs ih =>
    rw [encode_cons, List.append_assoc, decodeFrom_encodeChar, ih]
    simp

/-- Reading puts what it finds behind what was found before. -/
theorem decodeFrom_eq_map (found : List Char) (bs : List UInt8) :
    decodeFrom found bs = (decode? bs).map (found.reverse ++ ·) := by
  unfold decode?
  suffices ∀ found front, decodeFrom (front ++ found) bs =
      (decodeFrom front bs).map (found.reverse ++ ·) by simpa using this found []
  clear found
  intro found front
  fun_induction decodeFrom front bs with
  | case1 front bs h => rw [decodeFrom]; simp [h]
  | case2 front bs h hd =>
    rw [decodeFrom, if_neg h]
    split
    · rfl
    · simp_all
  | case3 front bs h c rest hd ih =>
    rw [decodeFrom, if_neg h]
    split
    · simp_all
    · rename_i hd'
      rw [hd] at hd'
      cases hd'
      exact ih

theorem decode?_encode_append (cs : List Char) (rest : List UInt8) :
    decode? (encode cs ++ rest) = (decode? rest).map (cs ++ ·) := by
  rw [decode?, decodeFrom_encode_append, decodeFrom_eq_map]
  simp

@[simp] theorem decode?_nil : decode? [] = some [] := by rw [decode?, decodeFrom]; rfl

@[simp] theorem decode?_encode (cs : List Char) : decode? (encode cs) = some cs := by
  simpa using decode?_encode_append cs []

end LockTrace.Text.Utf8
