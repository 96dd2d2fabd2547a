import LockTrace.Proofs.Json.Overflow
import LockTrace.Proofs.Record.Members

namespace LockTrace.Record

open Json (Blanks Phrase Piece Stand Torn Value)

/-- The values of a member are of its type, and under a key that is no member's no integer is out of
bounds. -/
def Typed (ms : List (String × Value)) : Prop := ∀ k v, (k, v) ∈ ms →
  (∀ m : Member, m.key = k → m.Admits v) ∧ ((∀ m : Member, m.key ≠ k) → v.Bounded)

theorem typed_nil : Typed [] := fun _ _ hm => by contradiction

theorem Typed.member {ms : List (String × Value)} (h : Typed ms) (m : Member) {v : Value}
    (hv : m.Admits v) : Typed ((m.key, v) :: ms) := by
  intro k v' hm
  rcases List.mem_cons.mp hm with heq | hm
  · cases heq
    refine ⟨fun m' hm => ?_, fun hno => absurd rfl (hno m)⟩
    rwa [Member.key_inj hm]
  · exact h k v' hm

theorem Typed.other {ms : List (String × Value)} (h : Typed ms) {k : String} {v : Value}
    (hk : Member.ofKey? k = none) (hv : v.Bounded) : Typed ((k, v) :: ms) := by
  intro k' v' hm
  rcases List.mem_cons.mp hm with heq | hm
  · cases heq
    exact ⟨fun m hm => absurd hm (key_ne_of_ofKey? hk m), fun _ => hv⟩
  · exact h k' v' hm

theorem Typed.count_or_bounded {ms : List (String × Value)} (h : Typed ms) {k : String} {v : Value}
    (hm : (k, v) ∈ ms) : v.Bounded ∨ ∃ n, v = .count n := by
  obtain ⟨hadmits, hbounded⟩ := h k v hm
  cases hk : Member.ofKey? k with
  | none => exact Or.inl (hbounded (key_ne_of_ofKey? hk))
  | some m =>
    have ha := hadmits m (key_of_ofKey? hk)
    cases m with
    | time => exact Or.inr ha
    | kind | tid | lock =>
      obtain ⟨s, rfl⟩ := ha
      exact Or.inl (.text s)

theorem Typed.admits {ms : List (String × Value)} (h : Typed ms) (k : String) (v : Value)
    (hm : (k, v) ∈ ms) (m : Member) (hk : m.key = k) : m.Admits v :=
  (h k v hm).1 m hk

theorem bounded_value (raw : Raw) (m : Member) : (raw.value m).Bounded := by
  cases m with
  | time =>
    have := raw.time.toNat_lt_size
    exact .count (Nat.lt_trans this (by decide))
  | kind | tid | lock => exact .text _

/-- The values of a record are within bounds. -/
theorem Typed.bounded {ms : List (String × Value)} (h : Typed ms) {raw : Raw}
    (hv : ∀ m : Member, valuesOf m.key ms = [raw.value m]) : ∀ m ∈ ms, m.2.Bounded := by
  rintro ⟨k, v⟩ hm
  cases hk : Member.ofKey? k with
  | none => exact (h k v hm).2 (key_ne_of_ofKey? hk)
  | some m =>
    obtain rfl := key_of_ofKey? hk
    have hmem : v ∈ valuesOf m.key ms := by
      simpa [valuesOf] using hm
    rw [hv m, List.mem_singleton] at hmem
    subst hmem
    exact bounded_value raw m

theorem read_blanks {front : List Char} (hf : Blanks front) :
    Json.read (Text.Utf8.encode front) = ⟨[], some (.ended .value)⟩ := by
  obtain ⟨pos, hn⟩ := Json.next_blanks hf 0 []
  rw [List.append_nil] at hn
  rw [Json.read, Json.readFrom_succ Stand.noConfusion, hn]
  rfl

/-- The brace in front of an object opens it, whatever blanks stand before it. -/
theorem read_braced {front : List Char} (hf : Blanks front) (bs : List UInt8) :
    ∃ fuel pos, bs.length < fuel ∧ Json.read (Text.Utf8.encode front ++ 0x7b :: bs) =
      Json.readFrom fuel [.objectStart] (.at .keyOrEnd [.object]) pos bs := by
  obtain ⟨pos, hn⟩ := Json.next_blanks hf 0 (0x7b :: bs)
  refine ⟨(Text.Utf8.encode front ++ 0x7b :: bs).length, pos + 1, ?_, ?_⟩
  · simp only [List.length_append, List.length_cons]
    omega
  · rw [Json.read, Json.readFrom_succ Stand.noConfusion, hn,
      Json.next_punctuation (l := .objectStart) (by decide)]
    rfl

theorem encode_opened (front x : List Char) :
    Text.Utf8.encode (front ++ '\x7b' :: x) =
      Text.Utf8.encode front ++ 0x7b :: Text.Utf8.encode x := by
  have hl : String.utf8EncodeChar '\x7b' = [0x7b] := by decide
  simp [hl]

theorem encode_closed (ws back : List Char) :
    Text.Utf8.encode (ws ++ '\x7d' :: back) =
      Text.Utf8.encode ws ++ 0x7d :: Text.Utf8.encode back := by
  have hr : String.utf8EncodeChar '\x7d' = [0x7d] := by decide
  simp [hr]

theorem readDocument_whole {bs : List UInt8} {ps : List Piece}
    (h : Json.read bs = ⟨.objectStart :: ps, none⟩) (raw : Raw) :
    readDocument bs = .ok raw ↔ readMembers ps.length {} ps = .ok raw := by
  simp only [readDocument, h, Json.Reading.delivered, readPieces]
  cases readMembers ps.length {} ps <;> simp

/-- What a fault withholds can only make a torn object shorter. -/
theorem readDocument_torn {bs : List UInt8} {ms : List (String × Value)} {ps qs : List Piece}
    {f : Json.Fault} (h : Json.read bs = ⟨.objectStart :: qs, some f⟩)
    (hp : (Phrase.members ms).Pieces ps)
    (hs : ∀ k v, (k, v) ∈ ms → ∀ m : Member, m.key = k → Single v) (ht : Torn ps qs) (raw : Raw) :
    readDocument bs ≠ .ok raw := by
  have refused (n : Nat) (raw : Raw) : readPieces ((.objectStart :: qs).take n) ≠ .ok raw := by
    cases n with
    | zero => exact fun he => by contradiction
    | succ n => exact readMembers_torn hp hs (ht.take n) _ _ raw
  simp only [readDocument, h, Json.Reading.delivered]
  generalize (Piece.objectStart :: qs).length / Json.batchSize * Json.batchSize = n
  cases hr : readPieces ((.objectStart :: qs).take n) with
  | ok raw' => exact absurd hr (refused n raw')
  | error m => cases m <;> simp

section
variable {ms : List (String × Value)} {front ws : List Char} (hf : Blanks front)
  (h : (Phrase.members ms).Text ws)

include hf h in
/-- An object is a record if it has one value for each member, of which the record is made. -/
theorem readDocument_object (ht : Typed ms) (hb : ∀ m ∈ ms, m.2.Bounded) (back : List Char)
    (raw : Raw) : readDocument (Text.Utf8.encode (front ++ '\x7b' :: (ws ++ '\x7d' :: back))) =
      .ok raw ↔ ∀ m : Member, valuesOf m.key ms = [raw.value m] := by
  obtain ⟨ps, hp, hr⟩ := h.readable hb [] (Text.Utf8.encode back)
  obtain ⟨fuel, pos, hfuel, hread⟩ := read_braced hf (Text.Utf8.encode (ws ++ '\x7d' :: back))
  rw [← encode_closed] at hr
  rw [← encode_opened, hr.readFrom hfuel] at hread
  have hwhole : Json.read (Text.Utf8.encode (front ++ '\x7b' :: (ws ++ '\x7d' :: back))) =
      ⟨.objectStart :: ps, none⟩ := hread
  rw [readDocument_whole hwhole, readMembers_iff hp ht.admits (Nat.le_refl _)]
  apply forall_congr'
  intro m
  cases m <;> rfl

include hf h in
/-- No record is read from an object that was cut or has a number that is too large. -/
theorem readDocument_broken (ht : Typed ms) {back x y : List Char}
    (hx : x ++ y = ws ++ '\x7d' :: back)
    (hbroken : back = [] ∧ y ≠ [] ∨ ¬ ∀ m ∈ ms, m.2.Bounded) (raw : Raw) :
    readDocument (Text.Utf8.encode (front ++ '\x7b' :: x)) ≠ .ok raw := by
  have hbytes : Text.Utf8.encode x ++ Text.Utf8.encode y =
      Text.Utf8.encode ws ++ 0x7d :: Text.Utf8.encode back := by
    rw [← encode_closed, ← hx, Text.Utf8.encode_append]
  obtain ⟨fuel, pos, hfuel, hread⟩ := read_braced hf (Text.Utf8.encode x)
  rw [← encode_opened] at hread
  have inside : (Stand.at .keyOrEnd [.object]).inside := List.cons_ne_nil _ _
  by_cases hb : ∀ m ∈ ms, m.2.Bounded
  · obtain ⟨rfl, hy⟩ := hbroken.resolve_right (fun hn => hn hb)
    obtain ⟨ps, hp, hr⟩ := h.readable hb [] []
    rw [Text.Utf8.encode_nil] at hbytes
    rw [← hbytes] at hr
    obtain ⟨f, qs, hq, htorn⟩ :=
      hr.readFrom_torn (.cut (Json.encode_ne_nil hy)) inside hfuel [.objectStart] pos
    rw [List.append_nil] at htorn
    rw [hq] at hread
    exact readDocument_torn hread hp (fun k v hm m hk => (ht.admits k v hm m hk).single) htorn raw
  · obtain ⟨first, k, v, ps, s', rest, ⟨more, hmore⟩, hp, hr, hj⟩ :=
      Json.jamsAmong h (fun m hm => ht.count_or_bounded hm) hb [] (Text.Utf8.encode back)
    rw [← hbytes] at hr
    obtain ⟨f, qs, hq, htorn⟩ := hr.readFrom_torn (.jam hj) inside hfuel [.objectStart] pos
    rw [hq] at hread
    refine readDocument_torn hread hp ?_ htorn raw
    intro k' v' hm m hk
    rcases List.mem_append.mp hm with hm | hm
    · exact (ht.admits k' v' (by simp [← hmore, hm]) m hk).single
    · cases List.mem_singleton.mp hm
      trivial

end

/-- Only white space is stripped off a line. -/
theorem strip_append (cs : List Char) : ∃ ds, cs = strip cs ++ ds ∧ Blanks ds := by
  have last (k : Char) (hk : k = '\n' ∨ k = '\r') (cs : List Char) :
      ∃ ds, cs = (if cs.getLast? = some k then cs.dropLast else cs) ++ ds ∧ Blanks ds := by
    split
    · rename_i h
      obtain ⟨front, rfl⟩ := List.getLast?_eq_some_iff.mp h
      refine ⟨[k], by rw [List.dropLast_concat], ?_⟩
      intro c hc
      rcases hk with rfl | rfl
      · exact Or.inr (Or.inr (Or.inl (List.mem_singleton.mp hc)))
      · exact Or.inr (Or.inr (Or.inr (List.mem_singleton.mp hc)))
    · exact ⟨[], (List.append_nil _).symm, fun _ hc => by contradiction⟩
  obtain ⟨as, ha, hab⟩ := last '\n' (Or.inl rfl) cs
  obtain ⟨bs, hb, hbb⟩ := last '\r' (Or.inr rfl)
    (if cs.getLast? = some '\n' then cs.dropLast else cs)
  refine ⟨bs ++ as, ?_, ?_⟩
  · rw [← List.append_assoc]
    exact ha.trans (congrArg (· ++ as) hb)
  · intro c hc
    rcases List.mem_append.mp hc with hc | hc
    · exact hbb c hc
    · exact hab c hc

/-- The closing brace of an object stays when a line is stripped. -/
theorem strip_closed (cs back : List Char) :
    ∃ back', strip (cs ++ '\x7d' :: back) = cs ++ '\x7d' :: back' := by
  obtain ⟨ds, hds, hblank⟩ := strip_append (cs ++ '\x7d' :: back)
  have hbrace : '\x7d' ∉ ds := by
    intro hm
    have := hblank _ hm
    simp at this
  rcases List.append_eq_append_iff.mp hds with ⟨as, ha, hd⟩ | ⟨as, ha, hd⟩
  · obtain _ | ⟨a, as⟩ := as
    · rw [List.nil_append] at hd
      exact absurd (hd ▸ List.mem_cons_self ..) hbrace
    · obtain ⟨rfl, -⟩ := List.cons.inj hd
      exact ⟨as, ha⟩
  · exact absurd (hd ▸ List.mem_append_right _ (List.mem_cons_self ..)) hbrace

/-- A line that spells no record is refused. -/
theorem exists_error {line : String}
    (h : ∀ raw, readDocument (Text.Utf8.encode (strip line.toList)) ≠ .ok raw) :
    ∃ error, decode line = .error error := by
  simp only [decode]
  split
  · exact ⟨_, rfl⟩
  · split
    · exact ⟨_, rfl⟩
    · rename_i raw hr
      exact absurd hr (h raw)

/-- A record as it is read. -/
def rawOf (e : Event) : Raw := ⟨e.kind, e.time.count, e.tid, e.lock.text⟩

theorem event?_iff (raw : Raw) (e : Event) : raw.event? = some e ↔ raw = rawOf e := by
  constructor
  · intro h
    obtain ⟨lock, hl, rfl⟩ := Option.map_eq_some_iff.mp h
    unfold LockName.ofString? at hl
    split at hl
    · contradiction
    · cases hl
      rfl
  · rintro rfl
    simp [Raw.event?, rawOf, LockName.ofString?_text]

theorem decode_iff {line : String} (hl : '\n' ∉ line.toList) (e : Event) : decode line = .ok e ↔
    readDocument (Text.Utf8.encode (strip line.toList)) = .ok (rawOf e) := by
  have hs : '\n' ∉ strip line.toList := by
    obtain ⟨ds, hds, -⟩ := strip_append line.toList
    intro hm
    apply hl
    rw [hds]
    exact List.mem_append_left _ hm
  simp only [decode, if_neg hs]
  cases hr : readDocument (Text.Utf8.encode (strip line.toList)) with
  | error f => simp
  | ok raw =>
    rw [Except.ok.injEq, ← event?_iff]
    cases hv : raw.event? with
    | none => simp [hv]
    | some e' => simp [hv]

section
variable {ms : List (String × Value)} {front text back : List Char}
  (h : (Phrase.value (.object ms)).Text text) (hf : Blanks front)

include h hf in
/-- A record is read from an object just if each of its members has that one value there. -/
theorem decode_iff_values (hl : '\n' ∉ front ++ text ++ back) (ht : Typed ms) (e : Event) :
    decode (String.ofList (front ++ text ++ back)) = .ok e ↔
      ∀ m : Member, valuesOf m.key ms = [(rawOf e).value m] := by
  cases h with
  | @object _ ws h =>
    have hline : front ++ '\x7b' :: (ws ++ ['\x7d']) ++ back =
        (front ++ '\x7b' :: ws) ++ '\x7d' :: back := by simp
    rw [decode_iff (by rwa [String.toList_ofList]), String.toList_ofList, hline]
    obtain ⟨back', hstrip⟩ := strip_closed (front ++ '\x7b' :: ws) back
    rw [hstrip, List.append_assoc, List.cons_append]
    by_cases hb : ∀ m ∈ ms, m.2.Bounded
    · exact readDocument_object hf h ht hb back' (rawOf e)
    · refine ⟨fun hr => ?_, fun hv => ?_⟩
      · exact absurd hr (readDocument_broken hf h ht (List.append_nil _) (Or.inr hb) (rawOf e))
      · exact absurd (ht.bounded hv) hb

include h hf in
/-- An object that was cut is refused. -/
theorem exists_error_of_cut (ht : Typed ms) {n : Nat} (hn : n < (front ++ text).length) :
    ∃ error, decode (String.ofList ((front ++ text).take n)) = .error error := by
  apply exists_error
  rw [String.toList_ofList]
  obtain ⟨ds, hds, -⟩ := strip_append ((front ++ text).take n)
  have hcut : strip ((front ++ text).take n) ++ (ds ++ (front ++ text).drop n) = front ++ text := by
    rw [← List.append_assoc, ← hds, List.take_append_drop]
  have hrest : ds ++ (front ++ text).drop n ≠ [] := by
    have : (front ++ text).drop n ≠ [] := by
      intro he
      have := List.drop_eq_nil_iff.mp he
      omega
    simp [this]
  generalize strip ((front ++ text).take n) = x at hcut ⊢
  generalize ds ++ (front ++ text).drop n = y at hcut hrest
  intro raw
  have blank {x : List Char} (hx : Blanks x) : readDocument (Text.Utf8.encode x) ≠ .ok raw := by
    rw [readDocument, read_blanks hx]
    exact fun he => by contradiction
  cases h with
  | @object _ ws h =>
    rcases List.append_eq_append_iff.mp hcut with ⟨as, ha, hd⟩ | ⟨as, ha, hd⟩
    · exact blank fun c hc => hf c (by rw [ha]; exact List.mem_append_left _ hc)
    · obtain _ | ⟨a, as⟩ := as
      · rw [List.append_nil] at ha
        exact blank (ha ▸ hf)
      · obtain ⟨rfl, hws⟩ := List.cons.inj hd
        rw [ha]
        exact readDocument_broken hf h ht hws.symm (Or.inl ⟨rfl, hrest⟩) raw

end

/-- An object is read as a record just if each of the four keys stands in it once, with the name of
a kind, a time of 64 bits, any thread and a label that is not empty, and these are then what the
record holds. Blanks, spelling, order and other members make no difference, and neither does what
follows the object on its line. No object is accepted that lacks its end. -/
theorem decode_object {ms : List (String × Value)} {front text back : List Char}
    (h : (Phrase.value (.object ms)).Text text) (hf : Blanks front)
    (hl : '\n' ∉ front ++ text ++ back) (ht : Typed ms) :
    ((∃ e, decode (String.ofList (front ++ text ++ back)) = .ok e) ↔
      ∃ kind time tid lock,
        valuesOf "type" ms = [.text kind] ∧ valuesOf "time" ms = [.count time] ∧
        valuesOf "tid" ms = [.text tid] ∧ valuesOf "lock" ms = [.text lock] ∧
        kind ∈ Kind.all.map Kind.name ∧ time < UInt64.size ∧ lock ≠ "") ∧
    (∀ e, decode (String.ofList (front ++ text ++ back)) = .ok e →
      valuesOf "type" ms = [.text e.kind.name] ∧
      valuesOf "time" ms = [.count e.time.count.toNat] ∧
      valuesOf "tid" ms = [.text e.tid] ∧ valuesOf "lock" ms = [.text e.lock.text]) ∧
    ∀ n < (front ++ text).length,
      ∃ error, decode (String.ofList ((front ++ text).take n)) = .error error := by
  have read (e : Event) : decode (String.ofList (front ++ text ++ back)) = .ok e ↔
      ∀ m : Member, valuesOf m.key ms = [(rawOf e).value m] :=
    decode_iff_values h hf hl ht e
  refine ⟨⟨?_, ?_⟩, ?_, fun n hn => exists_error_of_cut h hf ht hn⟩
  · rintro ⟨e, he⟩
    have hv := (read e).mp he
    refine ⟨e.kind.name, e.time.count.toNat, e.tid, e.lock.text, hv .kind, hv .time, hv .tid,
      hv .lock, ?_, e.time.count.toNat_lt_size, e.lock.nonempty⟩
    cases e.kind <;> decide
  · rintro ⟨kind, time, tid, lock, hkind, htime, htid, hlock, hname, hsize, hne⟩
    obtain ⟨k, -, rfl⟩ := List.mem_map.mp hname
    refine ⟨⟨k, ⟨UInt64.ofNat time⟩, tid, ⟨lock, hne⟩⟩, (read _).mpr ?_⟩
    have hn : (UInt64.ofNat time).toNat = time := UInt64.toNat_ofNat_of_lt hsize
    intro m
    cases m with
    | kind => exact hkind
    | time =>
      change valuesOf "time" ms = [.count (UInt64.ofNat time).toNat]
      rw [hn, htime]
    | tid => exact htid
    | lock => exact hlock
  · intro e he
    have hv := (read e).mp he
    exact ⟨hv .kind, hv .time, hv .tid, hv .lock⟩

theorem decode_object_nested :
    ∃ e, decode (" \x7b\"lock\":\"A\",\"x\":[1,\x7b\"type\":null\x7d],\"t\\u0069d\":\"t\"," ++
        "\"type\" : \"lock_acquired\",\"time\":7\x7d\r") = .ok e ∧
      e.kind = .acquired ∧ e.time.count = 7 ∧ e.tid = "t" ∧ e.lock.text = "A" := by
  have close : Blanks [] := by simp [Blanks]
  have space : Blanks [' '] := by simp [Blanks]
  have bare {v : Value} {ws : List Char} (h : (Phrase.value v).Text ws) :=
    Phrase.Text.item close h close
  have name (s : String) (hs : s.toList.all Json.isPlain = true) := Json.chars_plain hs
  have lock := Phrase.Text.member close (name "lock" (by decide)) close
    (bare (.text (name "A" (by decide))))
  have inner := Phrase.Text.lastMember (.member close (name "type" (by decide)) close
    (bare (.literal (show ['n', 'u', 'l', 'l'] ∈ Json.literals by decide))))
  have extra := Phrase.Text.member close (name "x" (by decide)) close
    (bare (.array (.moreItems (List.cons_ne_nil _ _) (bare (.count 1))
      (.lastItem (bare (.object inner))))))
  have tid := Phrase.Text.member close
    (.raw (c := 't') (by decide) (by decide) (by decide)
      (.unicode (.digits (a := '0') (b := '0') (c := '6') (d := '9') rfl rfl rfl rfl) (by decide)
        (by decide) (name "d" (by decide)))) close (bare (.text (name "t" (by decide))))
  have kind := Phrase.Text.member close (name "type" (by decide)) space
    (.item space (.text (name "lock_acquired" (by decide))) close)
  have time := Phrase.Text.member close (name "time" (by decide)) close (bare (.count 7))
  have h := Phrase.Text.object (.moreMembers (List.cons_ne_nil _ _) lock
    (.moreMembers (List.cons_ne_nil _ _) extra (.moreMembers (List.cons_ne_nil _ _) tid
      (.moreMembers (List.cons_ne_nil _ _) kind (.lastMember time)))))
  have ht : Typed [("lock", .text "A"), ("x", .array [.count 1, .object [("type", .plain)]]),
      ("tid", .text "t"), ("type", .text "lock_acquired"), ("time", .count 7)] :=
    typed_nil.member .time ⟨7, rfl⟩ |>.member .kind ⟨_, rfl⟩ |>.member .tid ⟨_, rfl⟩
      |>.other (by decide) (.array (by
        simp only [List.mem_cons, List.not_mem_nil, or_false]
        rintro v (rfl | rfl)
        · exact .count (by decide)
        · exact .object (by simpa using .plain))) |>.member .lock ⟨_, rfl⟩
  obtain ⟨haccept, hvalues, -⟩ := decode_object h space (show '\n' ∉ _ ++ ['\r'] by decide) ht
  obtain ⟨e, he⟩ := haccept.mpr
    ⟨"lock_acquired", 7, "t", "A", rfl, rfl, rfl, rfl, by decide, by decide, by decide⟩
  obtain ⟨hkind, htime, htid, hlock⟩ := hvalues e he
  have first {v v' : Value} (h : [v] = [v']) : v = v' := (List.cons.inj h).1
  have hname : Kind.acquired.name = e.kind.name := Value.text.inj (first hkind)
  refine ⟨e, he, (kind_eq_of_name hname).symm, ?_, (Value.text.inj (first htid)).symm,
    (Value.text.inj (first hlock)).symm⟩
  exact UInt64.toNat_inj.mp (Value.count.inj (first htime)).symm

end LockTrace.Record
