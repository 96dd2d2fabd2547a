import LockTrace.Json.Escape
import Mathlib.Tactic.Common

namespace LockTrace.Json

/-- A text and a way to write it character by character: escaped, or as it is where a window may
copy it. -/
inductive Spelled : List Char → List Char → Prop
  | nil : Spelled [] []
  | escaped {cs ws : List Char} (c : Char) (h : Spelled cs ws) :
      Spelled (c :: cs) (escapeChar c ++ ws)
  | copied {cs ws : List Char} {c : Char} (hc : isPlain c = true) (h : Spelled cs ws) :
      Spelled (c :: cs) (c :: ws)

namespace Spelled

theorem append {as bs vs ws : List Char} (ha : Spelled as vs) (hb : Spelled bs ws) :
    Spelled (as ++ bs) (vs ++ ws) := by
  induction ha with
  | nil => exact hb
  | escaped c h ih =>
    rw [List.append_assoc]
    exact .escaped c ih
  | copied hc h ih => exact .copied hc ih

theorem of_flatMap (cs : List Char) : Spelled cs (cs.flatMap escapeChar) := by
  induction cs with
  | nil => exact .nil
  | cons c cs ih => exact .escaped c ih

theorem of_plain {cs : List Char} (h : cs.all isPlain = true) : Spelled cs cs := by
  induction cs with
  | nil => exact .nil
  | cons c cs ih =>
    simp only [List.all_cons, Bool.and_eq_true] at h
    exact .copied h.1 (ih h.2)

end Spelled

/-- The borders of the windows leave no trace: every character is written by itself, in order. -/
theorem spelled_escape (cs : List Char) : Spelled cs (escape cs) := by
  fun_induction escape cs with
  | case1 cs _ hp ih =>
    have h := (Spelled.of_plain hp).append ih
    rwa [List.take_append_drop] at h
  | case2 cs _ _ ih =>
    have h := (Spelled.of_flatMap (splitBytes windowWidth cs).1).append ih
    rwa [splitBytes_append] at h
  | case3 cs => exact Spelled.of_flatMap cs

/-- A text too short for a window is escaped character by character. -/
theorem escape_short {cs : List Char} (h : hasBytes windowWidth cs = false) :
    escape cs = cs.flatMap escapeChar := by
  rw [escape, dif_neg (by simp [h])]

theorem isPlain_iff {c : Char} :
    isPlain c = true ↔ 0x20 ≤ c.toNat ∧ c.toNat < 0x80 ∧ c ≠ '\"' ∧ c ≠ '\\' := by
  simp [isPlain, and_assoc]

/-- The characters with an escape of their own, and the letters of these escapes. -/
def shortEscapes : List (Char × Char) := [('\"', '\"'), ('\\', '\\'), ('\n', 'n'), ('\r', 'r'),
  ('\t', 't'), ('\x08', 'b'), ('\x0c', 'f')]

/-- A character is written by a letter behind a backslash, by its number, or as it is. -/
theorem escapeChar_cases (c : Char) :
    (∃ d, (c, d) ∈ shortEscapes ∧ escapeChar c = ['\\', d]) ∨
    (c.toNat < 0x80 ∧ escapeChar c =
      ['\\', 'u', '0', '0', Nat.digitChar (c.toNat / 16), Nat.digitChar (c.toNat % 16)]) ∨
    (0x20 ≤ c.toNat ∧ c ≠ '\"' ∧ c ≠ '\\' ∧ escapeChar c = [c]) := by
  unfold escapeChar
  split_ifs with h1 h2 h3 h4 h5 h6 h7 h8
  · exact .inl ⟨_, by simp [shortEscapes, h1], rfl⟩
  · exact .inl ⟨_, by simp [shortEscapes, h2], rfl⟩
  · exact .inl ⟨_, by simp [shortEscapes, h3], rfl⟩
  · exact .inl ⟨_, by simp [shortEscapes, h4], rfl⟩
  · exact .inl ⟨_, by simp [shortEscapes, h5], rfl⟩
  · exact .inl ⟨_, by simp [shortEscapes, h6], rfl⟩
  · exact .inl ⟨_, by simp [shortEscapes, h7], rfl⟩
  · exact .inr (.inl ⟨by omega, rfl⟩)
  · exact .inr (.inr ⟨by omega, h1, h2, rfl⟩)

theorem digitChar_bounds : ∀ n < 16, 0x20 ≤ (Nat.digitChar n).toNat ∧
    (Nat.digitChar n).toNat < 0x80 := by
  decide

theorem shortEscapes_bounds : ∀ p ∈ shortEscapes, 0x20 ≤ p.2.toNat ∧ p.2.toNat < 0x80 := by
  decide

/-- Nothing that a stream of lines takes for the end of one is left in a written string, nor any
other control character. -/
theorem le_of_mem_escapeChar {c d : Char} (h : d ∈ escapeChar c) : 0x20 ≤ d.toNat := by
  rcases escapeChar_cases c with ⟨b, hb, he⟩ | ⟨hc, he⟩ | ⟨hc, _, _, he⟩
  · rw [he] at h
    have hs := (shortEscapes_bounds _ hb).1
    simp only [List.mem_cons, List.not_mem_nil, or_false] at h
    rcases h with rfl | rfl
    · decide
    · exact hs
  · rw [he] at h
    have high := (digitChar_bounds (c.toNat / 16) (by omega)).1
    have low := (digitChar_bounds (c.toNat % 16) (by omega)).1
    simp only [List.mem_cons, List.not_mem_nil, or_false] at h
    rcases h with rfl | rfl | rfl | rfl | rfl | rfl
    · decide
    · decide
    · decide
    · decide
    · exact high
    · exact low
  · rw [he, List.mem_singleton] at h
    exact h ▸ hc

theorem Spelled.le_of_mem {cs ws : List Char} (h : Spelled cs ws) {d : Char} (hd : d ∈ ws) :
    0x20 ≤ d.toNat := by
  induction h with
  | nil => simp at hd
  | escaped c h ih =>
    rcases List.mem_append.mp hd with hd | hd
    · exact le_of_mem_escapeChar hd
    · exact ih hd
  | copied hc h ih =>
    rcases List.mem_cons.mp hd with rfl | hd
    · exact (isPlain_iff.mp hc).1
    · exact ih hd

theorem le_of_mem_escape {cs : List Char} {d : Char} (h : d ∈ escape cs) : 0x20 ≤ d.toNat :=
  (spelled_escape cs).le_of_mem h

end LockTrace.Json
