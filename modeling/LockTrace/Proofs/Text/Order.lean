import LockTrace.Proofs.Text.Utf8

namespace LockTrace.Text.Utf8

variable {c d : Char} {cs ds : List Char} {s t : String}

/-- A lesser character is spelled by lesser bytes, whatever comes behind them. -/
theorem encodeChar_append_lt (h : c < d) (r r' : List UInt8) :
    String.utf8EncodeChar c ++ r < String.utf8EncodeChar d ++ r' := by
  have hn : c.val.toNat < d.val.toNat := h
  have hd := toNat_lt d
  simp only [String.utf8EncodeChar]
  -- The lead byte grows with the width, and bytes of one width are digits of the number.
  repeat' split
  all_goals
    simp (disch := omega) only [List.cons_append, List.nil_append, List.cons_lt_cons_iff,
      UInt8.lt_iff_toNat_lt, ← UInt8.toNat_inj, UInt8.toNat_ofNat', Nat.mod_eq_of_lt]
    omega

theorem encode_lt_encode (h : cs < ds) : encode cs < encode ds := by
  induction h with
  | @nil d ds =>
    obtain ⟨lead, tail, hlead, -, -⟩ := exists_lead d
    rw [encode_cons, hlead]
    exact List.nil_lt_cons _ _
  | rel h =>
    rw [encode_cons, encode_cons]
    exact encodeChar_append_lt h _ _
  | cons _ ih =>
    rw [encode_cons, encode_cons]
    exact List.append_left_lt ih

/-- Texts are in the order of their bytes. -/
theorem encode_toList_lt (h : s < t) : encode s.toList < encode t.toList :=
  encode_lt_encode (String.lt_iff.mp h)

end LockTrace.Text.Utf8
