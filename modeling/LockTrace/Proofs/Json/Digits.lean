import LockTrace.Json.Token
import LockTrace.Proofs.Text.Utf8

namespace LockTrace.Json

/-- A number as it is written. -/
def digits (n : Nat) : List UInt8 := Text.Utf8.encode (Nat.toDigits 10 n)

theorem digitChar_ascii {c : Char} (h : c.isDigit = true) :
    String.utf8EncodeChar c = [UInt8.ofNat c.toNat] ∧ isDigit (UInt8.ofNat c.toNat) = true ∧
      (UInt8.ofNat c.toNat).toNat = c.toNat := by
  obtain ⟨hl, hu⟩ := Char.isDigit_iff_toNat.mp h
  change 48 ≤ c.toNat at hl
  change c.toNat ≤ 57 at hu
  have hn : (UInt8.ofNat c.toNat).toNat = c.toNat := by
    rw [UInt8.toNat_ofNat']
    omega
  refine ⟨Text.Utf8.encodeChar_ascii (by omega), ?_, hn⟩
  simp only [isDigit, UInt8.le_iff_toNat_le, hn, UInt8.reduceToNat, Bool.and_eq_true,
    decide_eq_true_eq]
  exact ⟨hl, hu⟩

/-- One digit or more. -/
def Digits (ds : List Char) : Prop := ds ≠ [] ∧ ∀ d ∈ ds, d.isDigit = true

theorem digits_toDigits (n : Nat) : Digits (Nat.toDigits 10 n) :=
  ⟨Nat.toDigits_ne_nil, fun _ hd => Nat.isDigit_of_mem_toDigits (by decide) (by decide) hd⟩

theorem Digits.isDigit {ds : List Char} (h : Digits ds) {b : UInt8}
    (hb : b ∈ Text.Utf8.encode ds) : Json.isDigit b = true := by
  obtain ⟨c, hc, hb⟩ := List.mem_flatMap.mp hb
  obtain ⟨he, hd, _⟩ := digitChar_ascii (h.2 c hc)
  rw [he, List.mem_singleton] at hb
  exact hb ▸ hd

theorem encode_ne_nil {cs : List Char} (h : cs ≠ []) : Text.Utf8.encode cs ≠ [] := by
  cases cs with
  | nil => contradiction
  | cons c cs => simp [String.utf8EncodeChar_ne_nil]

/-- Digits read as bytes have the value that they have as characters. -/
theorem digitsValue_digits (n : Nat) : digitsValue (digits n) = n := by
  suffices ∀ (cs : List Char) (acc : Nat), (∀ c ∈ cs, c.isDigit = true) →
      (Text.Utf8.encode cs).foldl (fun n b => n * 10 + (b.toNat - 0x30)) acc =
        Nat.ofDigitChars 10 cs acc by
    have h := this (Nat.toDigits 10 n) 0 fun c hc =>
      Nat.isDigit_of_mem_toDigits (by decide) (by decide) hc
    rw [Nat.ofDigitChars_ten_toDigits] at h
    exact h
  intro cs
  induction cs with
  | nil =>
    intro acc _
    rfl
  | cons c cs ih =>
    intro acc h
    obtain ⟨he, _, hn⟩ := digitChar_ascii (h c (by simp))
    rw [Text.Utf8.encode_cons, he, List.singleton_append, List.foldl_cons, hn,
      ih _ fun d hd => h d (by simp [hd]), Nat.ofDigitChars_cons, Nat.mul_comm 10 acc]
    rfl

/-- Digits end where something else follows them. -/
theorem Digits.span {ds : List Char} (h : Digits ds) {rest : List UInt8}
    (hr : ∀ b ∈ rest.head?, Json.isDigit b = false) :
    spanDigits (Text.Utf8.encode ds ++ rest) = (Text.Utf8.encode ds, rest) := by
  rw [spanDigits, List.takeWhile_append_of_pos fun b hb => h.isDigit hb,
    List.dropWhile_append_of_pos fun b hb => h.isDigit hb]
  cases rest with
  | nil => simp
  | cons b rest => simp [hr b (by simp)]

end LockTrace.Json
