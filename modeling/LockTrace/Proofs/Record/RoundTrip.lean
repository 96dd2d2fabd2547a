import LockTrace.Proofs.Json.Reading
import LockTrace.Record.Line

namespace LockTrace.Record

open Json (Piece Reads quote digits)

/-- A record as bytes, behind the brace that opens it. -/
def members (e : Event) : List UInt8 :=
  Text.Utf8.encode (quote Member.kind.key) ++ 0x3a ::
    (Text.Utf8.encode (quote e.kind.name) ++ 0x2c ::
    (Text.Utf8.encode (quote Member.time.key) ++ 0x3a ::
    (digits e.time.count.toNat ++ 0x2c ::
    (Text.Utf8.encode (quote Member.tid.key) ++ 0x3a ::
    (Text.Utf8.encode (quote e.tid) ++ 0x2c ::
    (Text.Utf8.encode (quote Member.lock.key) ++ 0x3a ::
    (Text.Utf8.encode (quote e.lock.text) ++ [0x7d])))))))

/-- What the reader finds in a record behind the brace that opens it. -/
def pieces (e : Event) : List Piece :=
  [.key Member.kind.key, .scalar (.text e.kind.name),
    .key Member.time.key, .scalar (.unsigned e.time.count.toNat),
    .key Member.tid.key, .scalar (.text e.tid),
    .key Member.lock.key, .scalar (.text e.lock.text), .objectEnd]

theorem quote_key (m : Member) : quote m.key = '\"' :: m.key.toList ++ ['\"'] := by
  have hs : Json.hasBytes Json.windowWidth m.key.toList = false := by
    cases m <;> decide
  rw [quote, Json.escape_short hs]
  cases m <;> simp [Member.key, Json.escapeChar]

theorem encode_body (e : Event) : Text.Utf8.encode (body e) = 0x7b :: members e := by
  have hq : String.utf8EncodeChar '\"' = [0x22] := by decide
  have hc : String.utf8EncodeChar ',' = [0x2c] := by decide
  have hd : String.utf8EncodeChar ':' = [0x3a] := by decide
  have hl : String.utf8EncodeChar '\x7b' = [0x7b] := by decide
  have hr : String.utf8EncodeChar '\x7d' = [0x7d] := by decide
  unfold body members digits
  generalize quote e.kind.name = kind
  generalize quote e.tid = tid
  generalize quote e.lock.text = lock
  generalize Nat.toDigits 10 e.time.count.toNat = time
  rw [quote_key, quote_key, quote_key, quote_key]
  simp [Member.key, hq, hc, hd, hl, hr]

theorem reads_members (e : Event) :
    Reads (.at .keyOrEnd [.object]) (members e) (pieces e) .done [] := by
  have text (m : Member) (s : String) (bs : List UInt8) :
      Reads (.at .keyOrEnd [.object])
        (Text.Utf8.encode (quote m.key) ++ 0x3a :: (Text.Utf8.encode (quote s) ++ bs))
        [.key m.key, .scalar (.text s)] (.at .memberEnd [.object]) bs :=
    (Json.reads_key m.key [.object] _).append (Json.reads_text s [.object] bs)
  have count (bs : List UInt8) :
      Reads (.at .keyOrEnd [.object])
        (Text.Utf8.encode (quote Member.time.key) ++ 0x3a :: (digits e.time.count.toNat ++
          0x2c :: bs))
        [.key Member.time.key, .scalar (.unsigned e.time.count.toNat)]
        (.at .memberEnd [.object]) (0x2c :: bs) :=
    (Json.reads_key _ [.object] _).append (Json.reads_count e.time.count.toNat_lt_size [.object]
      (Json.ends_cons (by decide)))
  exact (text .kind e.kind.name _).append <| (Json.reads_comma _ _).append <| (count _).append <|
    (Json.reads_comma _ _).append <| (text .tid e.tid _).append <|
    (Json.reads_comma _ _).append <| (text .lock e.lock.text _).append (Json.reads_objectEnd _ _)

theorem ofKey?_key (m : Member) : Member.ofKey? m.key = some m := by
  cases m <;> decide

theorem readMembers_key {m : Member} {d d' : Draft} {ps rest : List Piece}
    (hd : d.has m = false) (h : d.readMember ps m = .ok (d', rest)) (fuel : Nat) :
    readMembers (fuel + 1) d (.key m.key :: ps) = readMembers fuel d' rest := by
  simp [readMembers, ofKey?_key, hd, h]

theorem readPieces_pieces (e : Event) :
    readPieces (.objectStart :: pieces e) =
      .ok ⟨e.kind, e.time.count, e.tid, e.lock.text⟩ := by
  have hk : kindNamed e.kind.name = .ok e.kind := by rw [kindNamed, Kind.ofName?_name]
  have ht : countOf (.unsigned e.time.count.toNat) = .ok e.time.count := by simp [countOf]
  calc readPieces (.objectStart :: pieces e)
      = readMembers (8 + 1) {} (pieces e) := rfl
    _ = readMembers (7 + 1) { kind := some e.kind } ((pieces e).drop 2) :=
        readMembers_key rfl (by simp [Draft.readMember, readKind, hk]; rfl) 8
    _ = readMembers (6 + 1) { kind := some e.kind, time := some e.time.count }
          ((pieces e).drop 4) :=
        readMembers_key rfl
          (by rw [Draft.readMember]; simp [readScalar, ht, bind, Except.bind]; rfl) 7
    _ = readMembers (5 + 1)
          { kind := some e.kind, time := some e.time.count, tid := some e.tid }
          ((pieces e).drop 6) :=
        readMembers_key rfl rfl 6
    _ = readMembers (4 + 1) ⟨some e.kind, some e.time.count, some e.tid, some e.lock.text⟩
          ((pieces e).drop 8) :=
        readMembers_key rfl rfl 5
    _ = .ok ⟨e.kind, e.time.count, e.tid, e.lock.text⟩ := rfl

theorem readDocument_body (e : Event) :
    readDocument (Text.Utf8.encode (body e)) =
      .ok ⟨e.kind, e.time.count, e.tid, e.lock.text⟩ := by
  have hr : Json.read (Text.Utf8.encode (body e)) = ⟨.objectStart :: pieces e, none⟩ := by
    rw [encode_body, Json.read_object, (reads_members e).readFrom (Nat.lt_succ_self _)]
    rfl
  rw [readDocument, hr]
  simp only [Json.Reading.delivered, readPieces_pieces]

theorem le_of_mem_quote {s : String} {c : Char} (h : c ∈ quote s) : 0x20 ≤ c.toNat := by
  simp only [quote, List.mem_append, List.mem_cons, List.not_mem_nil, or_false] at h
  rcases h with (rfl | h) | rfl
  · decide
  · exact Json.le_of_mem_escape h
  · decide

theorem le_of_mem_body {e : Event} {c : Char} (h : c ∈ body e) : 0x20 ≤ c.toNat := by
  have fixed (s : String) (hs : s.toList.all (0x20 ≤ ·.toNat) = true) (hc : c ∈ s.toList) :
      0x20 ≤ c.toNat := by
    simpa using List.all_eq_true.mp hs c hc
  unfold body at h
  simp only [List.mem_append, List.mem_singleton] at h
  rcases h with ((((((((h | h) | h) | h) | h) | h) | h) | h) | rfl)
  · exact fixed _ (by decide) h
  · exact le_of_mem_quote h
  · exact fixed _ (by decide) h
  · have := (Char.isDigit_iff_toNat.mp (Nat.isDigit_of_mem_toDigits (by decide) (by decide) h)).1
    exact Nat.le_trans (by decide) this
  · exact fixed _ (by decide) h
  · exact le_of_mem_quote h
  · exact fixed _ (by decide) h
  · exact le_of_mem_quote h
  · decide

theorem strip_of_le {cs : List Char} (h : ∀ c ∈ cs, 0x20 ≤ c.toNat) : strip cs = cs := by
  have hne (k : Char) (hk : k.toNat < 0x20) : cs.getLast? ≠ some k := by
    intro hl
    have := h k (List.mem_of_getLast? hl)
    omega
  simp [strip, hne '\n' (by decide), hne '\r' (by decide)]

theorem strip_newline {cs : List Char} (h : ∀ c ∈ cs, 0x20 ≤ c.toNat) :
    strip (cs ++ ['\n']) = cs := by
  have hr : cs.getLast? ≠ some '\r' := by
    intro hl
    have := h _ (List.mem_of_getLast? hl)
    contradiction
  simp [strip, hr]

theorem strip_carriageReturn {cs : List Char} : strip (cs ++ ['\r', '\n']) = cs := by
  have hl : cs ++ ['\r', '\n'] = (cs ++ ['\r']) ++ ['\n'] := by simp
  rw [strip, hl]
  simp

theorem newline_not_mem_body (e : Event) : '\n' ∉ body e := by
  intro hm
  have := le_of_mem_body hm
  contradiction

/-- A record is read from its text however the line ends. -/
theorem decode_of_strip {e : Event} {line : String} (h : strip line.toList = body e) :
    decode line = .ok e := by
  simp [decode, h, newline_not_mem_body, readDocument_body, Raw.event?, LockName.ofString?_text]

theorem encode_eq_append (e : Event) : encode e = String.ofList (body e) ++ "\n" := by
  rw [encode, String.ofList_append]

theorem decode_body (e : Event) : decode (String.ofList (body e)) = .ok e := by
  apply decode_of_strip
  rw [String.toList_ofList]
  exact strip_of_le fun c hc => le_of_mem_body hc

theorem decode_line (e : Event) : decode (encode e) = .ok e := by
  apply decode_of_strip
  rw [encode, String.toList_ofList]
  exact strip_newline fun c hc => le_of_mem_body hc

theorem decode_carriageReturn (e : Event) :
    decode (String.ofList (body e) ++ "\r\n") = .ok e := by
  apply decode_of_strip
  rw [String.toList_append, String.toList_ofList]
  exact strip_carriageReturn

/-- A record is written as one line, and it is read back with its line break, without it, and with a
carriage return before it. What an accepted line is read as is written and read back too. -/
theorem decode_encode :
    (∀ e, ∃ text : String, encode e = text ++ "\n" ∧ '\n' ∉ text.toList ∧
      decode (encode e) = .ok e ∧ decode text = .ok e ∧ decode (text ++ "\r\n") = .ok e) ∧
    ∀ line e, decode line = .ok e → decode (encode e) = .ok e := by
  constructor
  · intro e
    refine ⟨String.ofList (body e), encode_eq_append e, ?_, decode_line e, decode_body e,
      decode_carriageReturn e⟩
    rw [String.toList_ofList]
    exact newline_not_mem_body e
  · intro line e _
    exact decode_line e

end LockTrace.Record
