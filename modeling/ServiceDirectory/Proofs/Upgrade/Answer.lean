import ServiceDirectory.Proofs.Upgrade.Arrival

/-!
# The answer to an upgrade request

The head that switches protocols (`SwitchingHead`) carries an accept value of 28 characters of base 64,
and CR LF CR LF stands in it once, at its end: a client that looks for the end of the head finds the
frames behind it.  Every request that is accepted is answered by such a head
(`switchingHead_of_accepted`).
-/

namespace ServiceDirectory

/-! ## Characters of base 64 -/

theorem Base64.length_encode (bytes : Bytes) :
    (Base64.encode bytes).length = 4 * ((bytes.length + 2) / 3) := by
  fun_induction Base64.encode bytes with
  | case1 => rfl
  | case2 a => simp
  | case3 a b => simp
  | case4 a b c rest ih =>
    simp only [List.length_cons, ih]
    omega

/-- A digit to the base 64, or the padding. -/
def Base64.IsSign (c : Char) : Prop := c ∈ alphabet ∨ c = '='

theorem Base64.isSign_digit (value : Nat) : IsSign (digit value) := by
  rw [digit, List.getD_eq_getElem?_getD]
  cases h : alphabet[value]? with
  | none => exact .inr rfl
  | some c => exact .inl (List.mem_of_getElem? h)

theorem Base64.isSign_of_mem_encode {bytes : Bytes} {c : Char} (h : c ∈ encode bytes) :
    IsSign c := by
  fun_induction Base64.encode bytes with
  | case1 => cases h
  | case2 a =>
    simp only [List.mem_cons, List.not_mem_nil, or_false] at h
    rcases h with rfl | rfl | rfl | rfl
    · exact isSign_digit _
    · exact isSign_digit _
    · exact .inr rfl
    · exact .inr rfl
  | case3 a b =>
    simp only [List.mem_cons, List.not_mem_nil, or_false] at h
    rcases h with rfl | rfl | rfl | rfl
    · exact isSign_digit _
    · exact isSign_digit _
    · exact isSign_digit _
    · exact .inr rfl
  | case4 a b c' rest ih =>
    simp only [List.mem_cons] at h
    rcases h with rfl | rfl | rfl | rfl | h
    · exact isSign_digit _
    · exact isSign_digit _
    · exact isSign_digit _
    · exact isSign_digit _
    · exact ih h

/-- No character of base 64 holds a carriage return. -/
theorem Base64.not_mem_encodeChar {c : Char} (h : IsSign c) : 13 ∉ String.utf8EncodeChar c := by
  have hall : ('=' :: alphabet).all (fun c => decide (13 ∉ String.utf8EncodeChar c)) = true := by
    decide
  have hc : c ∈ '=' :: alphabet := by
    rcases h with h | rfl
    · exact List.mem_cons_of_mem _ h
    · exact List.mem_cons_self
  exact of_decide_eq_true (List.all_eq_true.mp hall c hc)

theorem Utf8.encode_append (a b : List Char) :
    Utf8.encode (a ++ b) = Utf8.encode a ++ Utf8.encode b := by
  rw [Utf8.encode, List.flatMap_append]
  rfl

namespace Upgrade

/-! ## Where the first head ends -/

/-- Bytes without a carriage return hold no terminator. -/
theorem headLengthFrom_skip {front : Bytes} (h : 13 ∉ front) (before : Nat) (rest : Bytes) :
    headLengthFrom before (front ++ rest) = headLengthFrom (before + front.length) rest := by
  induction front generalizing before with
  | nil => rfl
  | cons b front ih =>
    obtain ⟨hb, hfront⟩ := not_or.mp (List.mem_cons.not.mp h)
    have hp : terminator.isPrefixOf (b :: (front ++ rest)) = false := by
      simp [terminator, List.isPrefixOf, hb]
    rw [List.cons_append, headLengthFrom, hp, if_neg (by decide), ih hfront, List.length_cons]
    congr 1
    omega

/-- The end of a line is no terminator where the next line is not empty. -/
theorem headLengthFrom_lineEnd {b : UInt8} (h : b ≠ 13) (before : Nat) (rest : Bytes) :
    headLengthFrom before (13 :: 10 :: b :: rest) = headLengthFrom (before + 2) (b :: rest) := by
  -- a terminator begins neither with this line end nor in the middle of it
  have hcr : terminator.isPrefixOf (13 :: 10 :: b :: rest) = false := by
    simp [terminator, List.isPrefixOf, h.symm]
  have hlf : terminator.isPrefixOf (10 :: b :: rest) = false := by
    simp [terminator, List.isPrefixOf]
  rw [headLengthFrom, hcr, if_neg (by decide), headLengthFrom, hlf, if_neg (by decide)]

/-- Where a terminator stands, the first head ends there or before. -/
theorem headLength?_le (before after : Bytes) :
    ∃ length, headLength? (before ++ terminator ++ after) = some length ∧
      length ≤ before.length + terminator.length := by
  have hsome : ∃ length, headLengthFrom 0 (before ++ terminator) = some length := by
    suffices ∀ k, ∃ length, headLengthFrom k (before ++ terminator) = some length from this 0
    induction before with
    | nil => exact fun k => ⟨k + terminator.length, rfl⟩
    | cons b before ih =>
      intro k
      rw [List.cons_append, headLengthFrom]
      split
      · exact ⟨_, rfl⟩
      · exact ih (k + 1)
  obtain ⟨length, hl⟩ := hsome
  refine ⟨length, headLengthFrom_append_of_some after hl, ?_⟩
  have := (length_of_headLengthFrom hl).2
  rw [List.length_append] at this
  omega

/-- A line without a carriage return is passed over, where the next line is not empty. -/
theorem headLengthFrom_line {line next : Bytes} {b : UInt8} (hline : 13 ∉ line)
    (hnext : next.head? = some b) (hb : b ≠ 13) (before : Nat) (rest : Bytes) :
    headLengthFrom before (line ++ 13 :: 10 :: (next ++ rest)) =
      headLengthFrom (before + line.length + 2) (next ++ rest) := by
  obtain ⟨tail, rfl⟩ := List.head?_eq_some_iff.mp hnext
  rw [headLengthFrom_skip hline, List.cons_append, headLengthFrom_lineEnd hb]

/-! ## The head that switches protocols -/

/-- What stands before the accept value. -/
def switchingLines : String :=
  "HTTP/1.1 101 Switching Protocols\r\nUpgrade: websocket\r\nConnection: Upgrade\r\n" ++
    "Sec-WebSocket-Accept: "

/-- What stands behind the accept value. -/
def switchingEnd : String := "\r\n\r\n"

/-- A head that switches protocols. -/
structure SwitchingHead (head : Bytes) : Prop where
  /-- The accept value is 28 characters of base 64. -/
  accept : ∃ value : List Char, value.length = 28 ∧ (∀ c ∈ value, Base64.IsSign c) ∧
    head = Utf8.encode (switchingLines.toList ++ value ++ switchingEnd.toList)
  /-- CR LF CR LF stands at the end -/
  ends : ∃ front, head = front ++ terminator
  /-- and nowhere else. -/
  once : ∀ before after, head = before ++ terminator ++ after → after = []

theorem encode_switchingLines :
    Utf8.encode switchingLines.toList =
      Utf8.encode "HTTP/1.1 101 Switching Protocols".toList ++ 13 :: 10 ::
        (Utf8.encode "Upgrade: websocket".toList ++ 13 :: 10 ::
          (Utf8.encode "Connection: Upgrade".toList ++ 13 :: 10 ::
            Utf8.encode "Sec-WebSocket-Accept: ".toList)) := by
  decide +kernel

theorem encode_switchingEnd : Utf8.encode switchingEnd.toList = terminator := by
  decide +kernel

/-- The lines are passed over: none of them is empty. -/
theorem headLengthFrom_switchingLines (rest : Bytes) :
    headLengthFrom 0 (Utf8.encode switchingLines.toList ++ rest) =
      headLengthFrom (Utf8.encode switchingLines.toList).length rest := by
  rw [encode_switchingLines]
  simp only [List.append_assoc, List.cons_append]
  rw [headLengthFrom_line (b := 85) (by decide +kernel) (by decide +kernel) (by decide),
    headLengthFrom_line (b := 67) (by decide +kernel) (by decide +kernel) (by decide),
    headLengthFrom_line (b := 83) (by decide +kernel) (by decide +kernel) (by decide),
    headLengthFrom_skip (by decide +kernel)]
  simp only [List.length_append, List.length_cons]
  refine congrArg (headLengthFrom · rest) ?_
  omega

/-- The first terminator is the one at the end. -/
theorem headLength?_switching {value : List Char} (hvalue : ∀ c ∈ value, Base64.IsSign c) :
    headLength? (Utf8.encode (switchingLines.toList ++ value ++ switchingEnd.toList)) =
      some (Utf8.encode (switchingLines.toList ++ value ++ switchingEnd.toList)).length := by
  have haccept : 13 ∉ Utf8.encode value := by
    intro hm
    obtain ⟨c, hc, hb⟩ := List.mem_flatMap.mp hm
    exact Base64.not_mem_encodeChar (hvalue c hc) hb
  have hterminator : ∀ n, headLengthFrom n terminator = some (n + terminator.length) := fun _ => rfl
  rw [Utf8.encode_append, Utf8.encode_append, encode_switchingEnd, List.append_assoc, headLength?,
    headLengthFrom_switchingLines, headLengthFrom_skip haccept, hterminator]
  simp only [List.length_append, Nat.add_assoc]

theorem switchingHead_of_value {value : List Char} (hlength : value.length = 28)
    (hvalue : ∀ c ∈ value, Base64.IsSign c) :
    SwitchingHead (Utf8.encode (switchingLines.toList ++ value ++ switchingEnd.toList)) := by
  refine ⟨⟨value, hlength, hvalue, rfl⟩, ?_, ?_⟩
  · rw [Utf8.encode_append, encode_switchingEnd]
    exact ⟨_, rfl⟩
  · intro before after h
    obtain ⟨length, hl, hle⟩ := headLength?_le before after
    rw [← h, headLength?_switching hvalue] at hl
    obtain rfl := Option.some.inj hl
    rw [h] at hle
    simp only [List.length_append] at hle
    exact List.eq_nil_of_length_eq_zero (by omega)

/-- **Every request that is accepted is answered by such a head.** -/
theorem switchingHead_of_accepted {head : Bytes} {value : String}
    (h : Outcome.ofHead head = .accepted value) :
    SwitchingHead (Outcome.accepted value).response := by
  -- the last check of a head is that it has a key, and the value is made from this key
  have hvalue : ∃ key, value = acceptValue key := by
    simp only [Outcome.ofHead] at h
    split at h
    · simp at h
    · split at h
      · simp at h
      · next haccept =>
        obtain rfl := Outcome.accepted.inj h
        simp only [accept] at haccept
        repeat' split at haccept
        all_goals first
          | exact ⟨_, (Except.ok.inj haccept).symm⟩
          | simp at haccept
  obtain ⟨key, rfl⟩ := hvalue
  have hresponse : (Outcome.accepted (acceptValue key)).response =
      Utf8.encode (switchingLines ++ acceptValue key ++ switchingEnd).toList := rfl
  rw [hresponse, String.toList_append, String.toList_append]
  refine switchingHead_of_value ?_ ?_
  · rw [acceptValue, String.toList_ofList, Base64.length_encode, Sha1.length_hash]
  · intro c hc
    rw [acceptValue, String.toList_ofList] at hc
    exact Base64.isSign_of_mem_encode hc

theorem switchingHead_of_outcome? {limit : Nat} {received rest : Bytes} {value : String}
    (h : Handshake.outcome? limit received = some (.accepted value, rest)) :
    SwitchingHead (Outcome.accepted value).response := by
  simp only [Handshake.outcome?] at h
  split at h
  · split at h <;> simp at h
  · split at h
    · simp at h
    · exact switchingHead_of_accepted (Prod.mk.inj (Option.some.inj h)).1

end Upgrade

end ServiceDirectory
