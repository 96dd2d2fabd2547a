import LockTrace.Proofs.Record.RoundTrip
import LockTrace.Proofs.Record.Skip

namespace LockTrace.Record

open Json (Phrase Piece Scalar Torn Value)

/-- The values under a key, from left to right. -/
def valuesOf (k : String) (ms : List (String × Value)) : List Value :=
  (ms.filter (·.1 = k)).map (·.2)

theorem valuesOf_cons_self (k : String) (v : Value) (ms : List (String × Value)) :
    valuesOf k ((k, v) :: ms) = v :: valuesOf k ms := by
  simp [valuesOf]

theorem valuesOf_cons_of_ne {k k' : String} (h : k' ≠ k) (v : Value)
    (ms : List (String × Value)) : valuesOf k ((k', v) :: ms) = valuesOf k ms := by
  simp [valuesOf, h]

theorem key_of_ofKey? {k : String} {m : Member} (h : Member.ofKey? k = some m) : m.key = k := by
  simpa using List.find?_some h

theorem key_ne_of_ofKey? {k : String} (h : Member.ofKey? k = none) (m : Member) : m.key ≠ k := by
  rintro rfl
  rw [ofKey?_key] at h
  contradiction

theorem Member.key_inj {m m' : Member} (h : m.key = m'.key) : m = m' := by
  have := ofKey?_key m
  rw [h, ofKey?_key] at this
  exact (Option.some.inj this).symm

theorem kind_eq_of_name {k k' : Kind} (h : k.name = k'.name) : k = k' := by
  have := Kind.ofName?_name k
  rw [h, Kind.ofName?_name] at this
  exact (Option.some.inj this).symm

/-- The values that have the type of a member. -/
def Member.Admits : Member → Value → Prop
  | .time, v => ∃ n, v = .count n
  | _, v => ∃ s, v = .text s

/-- The value that stands for a member in the text of a record. -/
def Raw.value (r : Raw) : Member → Value
  | .kind => .text r.kind.name
  | .time => .count r.time.toNat
  | .tid => .text r.tid
  | .lock => .text r.lock

/-- The values of the members found so far. -/
def Draft.values (d : Draft) : Member → List Value
  | .kind => (d.kind.map fun k => .text k.name).toList
  | .time => (d.time.map fun n => .count n.toNat).toList
  | .tid => (d.tid.map .text).toList
  | .lock => (d.lock.map .text).toList

theorem has_iff (d : Draft) (m : Member) : d.has m = false ↔ d.values m = [] := by
  cases m <;> simp [Draft.has, Draft.values]

theorem finish_iff (d : Draft) (raw : Raw) :
    d.finish = .ok raw ↔ ∀ m, d.values m = [raw.value m] := by
  constructor
  · intro h m
    unfold Draft.finish at h
    split at h
    · rename_i hk ht hi hl
      cases h
      cases m <;> simp [Draft.values, Raw.value, *]
    all_goals contradiction
  · intro h
    obtain ⟨kind, hk, hk'⟩ : ∃ k, d.kind = some k ∧ k.name = raw.kind.name := by
      simpa [Draft.values, Raw.value, Option.toList_eq_singleton_iff] using h .kind
    obtain ⟨time, ht, ht'⟩ : ∃ n, d.time = some n ∧ n.toNat = raw.time.toNat := by
      simpa [Draft.values, Raw.value, Option.toList_eq_singleton_iff] using h .time
    have hi : d.tid = some raw.tid := by
      simpa [Draft.values, Raw.value, Option.toList_eq_singleton_iff] using h .tid
    have hl : d.lock = some raw.lock := by
      simpa [Draft.values, Raw.value, Option.toList_eq_singleton_iff] using h .lock
    obtain rfl := kind_eq_of_name hk'
    obtain rfl := UInt64.toNat_inj.mp ht'
    simp [Draft.finish, hk, ht, hi, hl]

theorem digit?_ten {c : Char} (h : c.isDigit = true) :
    Number.digit? 10 c = some (c.toNat - '0'.toNat) := by
  obtain ⟨hl, hu⟩ := Char.isDigit_iff_toNat.mp h
  have hc : '0' ≤ c ∧ c ≤ '9' :=
    ⟨Char.le_def.mpr (UInt32.le_iff_toNat_le.mpr hl),
      Char.le_def.mpr (UInt32.le_iff_toNat_le.mpr hu)⟩
  have hlt : c.toNat - '0'.toNat < 10 := by
    change c.toNat ≤ 57 at hu
    change c.toNat - 48 < 10
    omega
  simp only [Number.digit?, if_pos hc, if_pos hlt]

/-- Digits are read as the number they spell, if they are read at all. -/
theorem readDigits_eq {cs : List Char} (hc : ∀ c ∈ cs, c.isDigit = true) {limit acc n : Nat}
    (h : Number.readDigits 10 limit acc cs = .ok n) (ha : acc < limit) :
    n < limit ∧ n = Nat.ofDigitChars 10 cs acc := by
  induction cs generalizing acc with
  | nil =>
    cases h
    exact ⟨ha, rfl⟩
  | cons c cs ih =>
    rw [Number.readDigits, digit?_ten (hc c (by simp))] at h
    simp only at h
    split at h
    · rename_i hlt
      rw [Nat.ofDigitChars_cons, Nat.mul_comm 10 acc]
      exact ih (fun d hd => hc d (by simp [hd])) h hlt
    · contradiction

theorem readUnsigned_digits {cs : List Char} (h : Json.Digits cs) (base limit : Nat) :
    Number.readUnsigned base limit cs = Number.readDigits base limit 0 cs := by
  unfold Number.readUnsigned
  split
  · exact absurd rfl h.1
  · have := h.2 '+' (by simp)
    contradiction
  · have := h.2 '+' (by simp)
    contradiction
  · rfl

/-- The text of a number beyond 64 bits is no count of milliseconds. -/
theorem parseCount_large {n : Nat} (h : UInt64.size ≤ n) :
    ∃ e, parseCount (toString n) = .error e := by
  have hd := Json.digits_toDigits n
  cases hr : Number.readDigits 10 UInt64.size 0 (Nat.toDigits 10 n) with
  | error e =>
    refine ⟨.unparsable .time (toString n), ?_⟩
    rw [parseCount, Number.readWord, Nat.toString_eq_ofList_toDigits, String.toList_ofList,
      readUnsigned_digits hd, hr]
    rfl
  | ok k =>
    obtain ⟨hk, he⟩ := readDigits_eq hd.2 hr (by decide)
    rw [Nat.ofDigitChars_ten_toDigits] at he
    omega

theorem countOf_countScalar (n : Nat) :
    (∃ t, countOf (Json.countScalar n) = .ok t ∧ t.toNat = n) ∨
      UInt64.size ≤ n ∧ ∃ e, countOf (Json.countScalar n) = .error e := by
  by_cases hn : n < UInt64.size
  · left
    rw [Json.countScalar, if_pos hn]
    exact ⟨_, rfl, UInt64.toNat_ofNat_of_lt hn⟩
  · right
    rw [Json.countScalar, if_neg hn]
    exact ⟨Nat.le_of_not_lt hn, parseCount_large (Nat.le_of_not_lt hn)⟩

/-- Either the value of a member is read into the draft and nothing else changes, or no record has
this value. -/
theorem readMember_value {m : Member} {v : Value} (hv : m.Admits v) {ps : List Piece}
    (hp : (Phrase.value v).Pieces ps) (d : Draft) (rest : List Piece) :
    (∃ d', d.readMember (ps ++ rest) m = .ok (d', rest) ∧ d'.values m = [v] ∧
      ∀ m' ≠ m, d'.values m' = d.values m') ∨
    (∃ e, d.readMember (ps ++ rest) m = .error e) ∧ ∀ raw : Raw, raw.value m ≠ v := by
  cases m with
  | kind =>
    obtain ⟨s, rfl⟩ := hv
    cases hp
    cases hk : Kind.ofName? s with
    | some k =>
      left
      refine ⟨{ d with kind := some k }, ?_, ?_, ?_⟩
      · simp [Draft.readMember, readKind, kindNamed, hk, Except.map, bind, Except.bind, pure,
          Except.pure]
      · simp [Draft.values, Kind.name_of_ofName? hk]
      · intro m' hm
        cases m' <;> first | contradiction | rfl
    | none =>
      right
      refine ⟨⟨.unknownKind s, ?_⟩, ?_⟩
      · simp [Draft.readMember, readKind, kindNamed, hk, Except.map, bind, Except.bind]
      · intro raw hr
        cases hr
        rw [Kind.ofName?_name] at hk
        contradiction
  | time =>
    obtain ⟨n, rfl⟩ := hv
    cases hp
    rcases countOf_countScalar n with ⟨t, ht, hn⟩ | ⟨hn, e, he⟩
    · left
      refine ⟨{ d with time := some t }, ?_, ?_, ?_⟩
      · simp [Draft.readMember, readScalar, ht, bind, Except.bind, pure, Except.pure]
      · simp [Draft.values, hn]
      · intro m' hm
        cases m' <;> first | contradiction | rfl
    · right
      refine ⟨⟨e, ?_⟩, ?_⟩
      · simp [Draft.readMember, readScalar, he, bind, Except.bind]
      · intro raw hr
        have := raw.time.toNat_lt_size
        cases hr
        omega
  | tid =>
    obtain ⟨s, rfl⟩ := hv
    cases hp
    left
    refine ⟨{ d with tid := some s }, rfl, rfl, ?_⟩
    intro m' hm
    cases m' <;> first | contradiction | rfl
  | lock =>
    obtain ⟨s, rfl⟩ := hv
    cases hp
    left
    refine ⟨{ d with lock := some s }, rfl, rfl, ?_⟩
    intro m' hm
    cases m' <;> first | contradiction | rfl

theorem pieces_ne_nil {ms : List (String × Value)} {ps : List Piece}
    (h : (Phrase.members ms).Pieces ps) : ps ≠ [] := by
  cases h <;> exact List.cons_ne_nil _ _

/-- Together with the members still to come a draft has one value for each member, that of the
record. -/
def Draft.Completes (d : Draft) (ms : List (String × Value)) (raw : Raw) : Prop :=
  ∀ m : Member, d.values m ++ valuesOf m.key ms = [raw.value m]

section
variable {d d' : Draft} {m : Member} {v : Value} {ms : List (String × Value)} {raw : Raw}

theorem completes_nil : d.Completes [] raw ↔ d.finish = .ok raw := by
  rw [finish_iff]
  simp only [Draft.Completes, valuesOf, List.filter_nil, List.map_nil, List.append_nil]

theorem completes_other {k : String} (hk : Member.ofKey? k = none) :
    d.Completes ((k, v) :: ms) raw ↔ d.Completes ms raw := by
  have hkey (m : Member) : valuesOf m.key ((k, v) :: ms) = valuesOf m.key ms :=
    valuesOf_cons_of_ne (key_ne_of_ofKey? hk m).symm v ms
  simp only [Draft.Completes, hkey]

/-- A member that was there before has two values at least. -/
theorem not_completes_again (hd : d.has m = true) : ¬ d.Completes ((m.key, v) :: ms) raw := by
  intro h
  have hlen := congrArg List.length (h m)
  have hpos : d.values m ≠ [] := by
    intro he
    rw [(has_iff d m).mpr he] at hd
    contradiction
  have := List.length_pos_iff.mpr hpos
  rw [valuesOf_cons_self] at hlen
  simp only [List.length_append, List.length_cons, List.length_nil] at hlen
  omega

theorem completes_member (hd : d.has m = false) (hnew : d'.values m = [v])
    (hold : ∀ m' ≠ m, d'.values m' = d.values m') :
    d.Completes ((m.key, v) :: ms) raw ↔ d'.Completes ms raw := by
  apply forall_congr'
  intro m'
  by_cases hm : m' = m
  · subst hm
    rw [hnew, (has_iff d m').mp hd, valuesOf_cons_self]
    rfl
  · rw [hold m' hm, valuesOf_cons_of_ne fun he => hm (Member.key_inj he.symm)]

theorem not_completes_refused (hd : d.has m = false) (hv : raw.value m ≠ v) :
    ¬ d.Completes ((m.key, v) :: ms) raw := by
  intro h
  have hm := h m
  rw [(has_iff d m).mp hd, valuesOf_cons_self] at hm
  exact hv (List.cons.inj hm).1.symm

end

theorem readMembers_unknown {k : String} (hk : Member.ofKey? k = none) {ps : List Piece}
    (hv : Whole ps) (rest : List Piece) (fuel : Nat) (d : Draft) :
    readMembers (fuel + 1) d (.key k :: (ps ++ rest)) = readMembers fuel d rest := by
  simp only [readMembers, hk, skip_whole hv]

theorem readMembers_again {m : Member} {d : Draft} (hd : d.has m = true) (ps : List Piece)
    (fuel : Nat) : readMembers (fuel + 1) d (.key m.key :: ps) = .error (.duplicate m) := by
  simp only [readMembers, ofKey?_key, hd, if_true]

theorem readMembers_refused {m : Member} {d : Draft} {e : Mismatch} {ps : List Piece}
    (hd : d.has m = false) (he : d.readMember ps m = .error e) (fuel : Nat) :
    readMembers (fuel + 1) d (.key m.key :: ps) = .error e := by
  simp [readMembers, ofKey?_key, hd, he]

/-- The record of an object is the one whose members each have the one value under their key. -/
theorem readMembers_iff {ms : List (String × Value)} {ps : List Piece}
    (h : (Phrase.members ms).Pieces ps)
    (ht : ∀ k v, (k, v) ∈ ms → ∀ m : Member, m.key = k → m.Admits v) {fuel : Nat}
    (hf : ps.length ≤ fuel) (d : Draft) (raw : Raw) :
    readMembers fuel d ps = .ok raw ↔ d.Completes ms raw := by
  generalize hp : Phrase.members ms = p at h
  induction h generalizing ms fuel d with
  | noMembers =>
    cases hp
    obtain _ | fuel := fuel
    · contradiction
    · rw [completes_nil, readMembers]
  | @moreMembers k v ms ps qs hv hms _ ih =>
    cases hp
    have hne := hv.ne_nil
    obtain _ | fuel := fuel
    · contradiction
    have hf' : qs.length ≤ fuel := by
      simp only [List.length_cons, List.length_append] at hf
      omega
    have ht' : ∀ k v, (k, v) ∈ ms → ∀ m : Member, m.key = k → m.Admits v :=
      fun k v hm => ht k v (List.mem_cons_of_mem _ hm)
    cases hk : Member.ofKey? k with
    | none =>
      rw [readMembers_unknown hk (skipped_pieces hv), completes_other hk]
      exact ih ht' hf' d rfl
    | some m =>
      obtain rfl := key_of_ofKey? hk
      cases hd : d.has m with
      | true =>
        rw [readMembers_again hd]
        exact ⟨fun he => by contradiction, fun h => absurd h (not_completes_again hd)⟩
      | false =>
        rcases readMember_value (ht m.key v (List.mem_cons_self ..) m rfl) hv d qs with
          ⟨d', hr, hnew, hold⟩ | ⟨⟨e, he⟩, hno⟩
        · rw [readMembers_key hd hr, completes_member hd hnew hold]
          exact ih ht' hf' d' rfl
        · rw [readMembers_refused hd he]
          exact ⟨fun he => by contradiction, fun h => absurd h (not_completes_refused hd (hno raw))⟩
  | _ => cases hp

/-- A value that is one piece. -/
def Single : Value → Prop
  | .array _ | .object _ => False
  | _ => True

theorem pieces_single {v : Value} (hv : Single v) {ps : List Piece}
    (h : (Phrase.value v).Pieces ps) : ∃ x, ps = [.scalar x] := by
  cases h with
  | plain x | text s | count n | negative n x => exact ⟨_, rfl⟩
  | array | object => contradiction

theorem Member.Admits.single {m : Member} {v : Value} (h : m.Admits v) : Single v := by
  cases m <;> obtain ⟨x, rfl⟩ := h <;> trivial

/-- A scalar is all that is read as the value of a member. -/
theorem readMember_scalar {m : Member} {d d' : Draft} {x : Scalar} {ps rest : List Piece}
    (h : d.readMember (.scalar x :: ps) m = .ok (d', rest)) : rest = ps := by
  cases m with
  | kind =>
    cases x with
    | text s =>
      simp only [Draft.readMember, readKind] at h
      cases hk : kindNamed s with
      | error e =>
        rw [hk] at h
        contradiction
      | ok k =>
        rw [hk] at h
        cases h
        rfl
    | _ => contradiction
  | time =>
    simp only [Draft.readMember, readScalar, bind, Except.bind] at h
    cases hc : countOf x with
    | error e =>
      rw [hc] at h
      contradiction
    | ok n =>
      rw [hc] at h
      cases h
      rfl
  | tid | lock =>
    cases x <;> cases h <;> rfl

theorem readMembers_nil (fuel : Nat) (d : Draft) (raw : Raw) : readMembers fuel d [] ≠ .ok raw := by
  cases fuel <;> simp [readMembers]

theorem readMembers_scalar (x : Scalar) (fuel : Nat) (d : Draft) (raw : Raw) :
    readMembers fuel d [.scalar x] ≠ .ok raw := by
  cases fuel <;> simp [readMembers]

theorem readMembers_known {m : Member} {x : Scalar} {rest : List Piece} {fuel : Nat} {d : Draft}
    {raw : Raw} (h : readMembers (fuel + 1) d (.key m.key :: .scalar x :: rest) = .ok raw) :
    ∃ d', readMembers fuel d' rest = .ok raw := by
  simp only [readMembers, ofKey?_key] at h
  split at h
  · contradiction
  · split at h
    · contradiction
    · rename_i d' rest' hr
      rw [readMember_scalar hr] at h
      exact ⟨d', h⟩

theorem readMembers_key_alone (m : Member) (fuel : Nat) (d : Draft) (raw : Raw) :
    readMembers (fuel + 1) d [.key m.key] ≠ .ok raw := by
  simp only [readMembers, ofKey?_key]
  split
  · simp
  · cases m <;> exact fun h => by contradiction

/-- No record is read from an object that was torn. -/
theorem readMembers_torn {ms : List (String × Value)} {ps qs : List Piece}
    (h : (Phrase.members ms).Pieces ps)
    (hs : ∀ k v, (k, v) ∈ ms → ∀ m : Member, m.key = k → Single v) (ht : Torn ps qs)
    (fuel : Nat) (d : Draft) (raw : Raw) : readMembers fuel d qs ≠ .ok raw := by
  have short {p : Piece} {qs : List Piece} (ht : Torn [p] qs) (fuel : Nat) (d : Draft) :
      readMembers fuel d qs ≠ .ok raw := by
    rcases Json.torn_singleton ht with rfl | ⟨x, rfl⟩
    · exact readMembers_nil fuel d raw
    · exact readMembers_scalar x fuel d raw
  generalize hp : Phrase.members ms = p at h
  induction h generalizing ms fuel d qs with
  | noMembers => exact short ht fuel d
  | @moreMembers k v ms ps ps' hv hms _ ih =>
    cases hp
    have hs' : ∀ k v, (k, v) ∈ ms → ∀ m : Member, m.key = k → Single v :=
      fun k v hm => hs k v (List.mem_cons_of_mem _ hm)
    have hne := pieces_ne_nil hms
    have hfirst : Torn ([.key k] ++ (ps ++ ps')) qs := ht
    rcases hfirst.append_cases (by simp [hne]) with hq | ⟨qs, rfl, hq⟩
    · exact short hq fuel d
    intro hok
    obtain _ | fuel := fuel
    · contradiction
    cases hk : Member.ofKey? k with
    | none =>
      rcases hq.append_cases hne with hr | ⟨rest, rfl, hr⟩
      · simp only [List.singleton_append, readMembers, hk] at hok
        rcases skip_torn (skipped_pieces hv) hr with hn | hn
        · simp [hn] at hok
        · simp only [hn] at hok
          exact readMembers_nil fuel d raw hok
      · rw [List.singleton_append, readMembers_unknown hk (skipped_pieces hv)] at hok
        exact ih hs' hr fuel d rfl hok
    | some m =>
      obtain rfl := key_of_ofKey? hk
      obtain ⟨x, rfl⟩ := pieces_single (hs _ _ (List.mem_cons_self ..) m rfl) hv
      rcases hq.append_cases hne with hr | ⟨rest, rfl, hr⟩
      · rcases Json.torn_singleton hr with rfl | ⟨y, rfl⟩
        · exact readMembers_key_alone m fuel d raw hok
        · obtain ⟨d', hok⟩ := readMembers_known hok
          exact readMembers_nil fuel d' raw hok
      · obtain ⟨d', hok⟩ := readMembers_known hok
        exact ih hs' hr fuel d' rfl hok
  | _ => cases hp

end LockTrace.Record
