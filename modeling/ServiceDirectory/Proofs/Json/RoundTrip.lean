import ServiceDirectory.Json.Reader
import ServiceDirectory.Json.Writer
import ServiceDirectory.Proofs.Digits

/-!
# What is written can be read

Every value without numbers is read back as it was written, with whatever follows it left over
(`readValue_write`).  The directory writes no numbers, so its responses and notices are such values.

Strings are read back character by character: an escape is read as the character that it was written
for (`stringOnto_writeChar`).  Arrays and objects share one argument about texts with commas between
them (`readSequence_joined`).
-/

namespace ServiceDirectory.Json

/-! ## Strings -/

theorem stringOnto_plain {c : Char} (hquote : c ≠ '"') (hback : c ≠ '\\') (h : ¬ c.toNat < 0x20)
    (read text : List Char) : stringOnto read (c :: text) = stringOnto (c :: read) text := by
  rw [stringOnto.eq_def]
  simp [hquote, hback, h]

theorem stringOnto_letter {e c : Char} (hu : e ≠ 'u') (he : escaped? e = some c)
    (read text : List Char) : stringOnto read ('\\' :: e :: text) = stringOnto (c :: read) text := by
  rw [stringOnto.eq_def]
  simp [hu, he]

/-- The four digits of a control character are read as the character; it is not half a surrogate
pair. -/
theorem stringOnto_control {c : Char} (h : c.toNat < 0x20) (read text : List Char) :
    stringOnto read ('\\' :: 'u' :: Hex.digits 4 c.toNat ++ text) = stringOnto (c :: read) text := by
  have hread := Hex.ofDigits?_digits 4 c.toNat
  rw [Nat.mod_eq_of_lt (by omega)] at hread
  have hlow : ¬ IsLowSurrogate c.toNat := by unfold IsLowSurrogate; omega
  have hhigh : ¬ IsHighSurrogate c.toNat := by unfold IsHighSurrogate; omega
  obtain ⟨h₁, h₂, h₃, h₄, hdigits⟩ : ∃ h₁ h₂ h₃ h₄, Hex.digits 4 c.toNat = [h₁, h₂, h₃, h₄] :=
    ⟨_, _, _, _, rfl⟩
  rw [hdigits] at hread ⊢
  rw [stringOnto.eq_def]
  simp [hread, hlow, hhigh, Char.ofNat_toNat]

/-- **One character**: what it is written as is read as the character. -/
theorem stringOnto_writeChar (read : List Char) (c : Char) (text : List Char) :
    stringOnto read (writeChar c ++ text) = stringOnto (c :: read) text := by
  unfold writeChar
  -- the characters with an escape of one letter, then the other control characters
  split; · next h => subst h; exact stringOnto_letter (by decide) rfl read text
  split; · next h => subst h; exact stringOnto_letter (by decide) rfl read text
  split; · next h => subst h; exact stringOnto_letter (by decide) rfl read text
  split; · next h => subst h; exact stringOnto_letter (by decide) rfl read text
  split; · next h => subst h; exact stringOnto_letter (by decide) rfl read text
  split; · next h => subst h; exact stringOnto_letter (by decide) rfl read text
  split; · next h => subst h; exact stringOnto_letter (by decide) rfl read text
  split
  · next h => exact stringOnto_control h read text
  · next hquote hback _ _ _ _ _ h => exact stringOnto_plain hquote hback h read text

theorem stringOnto_flatMap (text read rest : List Char) :
    stringOnto read (text.flatMap writeChar ++ '"' :: rest) =
      .ok (String.ofList (read.reverse ++ text), rest) := by
  induction text generalizing read with
  | nil =>
    rw [List.flatMap_nil, List.nil_append, stringOnto.eq_def]
    simp
  | cons c text ih =>
    rw [List.flatMap_cons, List.append_assoc, stringOnto_writeChar, ih]
    simp

theorem readString_writeString (text : String) (rest : List Char) :
    readString (text.toList.flatMap writeChar ++ '"' :: rest) = .ok (text, rest) := by
  rw [readString, stringOnto_flatMap]
  simp

/-! ## Texts with commas between them -/

/-- Texts with commas between them, and the bracket that closes them. -/
def joined (close : Char) : List (List Char) → List Char
  | [] => [close]
  | [text] => text ++ [close]
  | text :: texts => text ++ ',' :: joined close texts

/-- Texts that follow another one. -/
def followers (close : Char) : List (List Char) → List Char
  | [] => [close]
  | text :: texts => ',' :: text ++ followers close texts

theorem joined_cons_cons (close : Char) (text next : List Char) (texts : List (List Char)) :
    joined close (text :: next :: texts) = text ++ ',' :: joined close (next :: texts) := by
  rw [joined]
  simp

theorem joined_cons (close : Char) (text : List Char) (texts : List (List Char)) :
    joined close (text :: texts) = text ++ followers close texts := by
  induction texts generalizing text with
  | nil => rfl
  | cons next texts ih =>
    rw [joined_cons_cons, ih]
    rfl

/-- A text begins with a character that is neither a blank nor the closing bracket. -/
def Begins (close : Char) (text : List Char) : Prop :=
  ∃ c tail, text = c :: tail ∧ isBlank c = false ∧ c ≠ close

theorem skipBlanks_cons {c : Char} (h : isBlank c = false) (text : List Char) :
    skipBlanks (c :: text) = c :: text := by
  simp [skipBlanks, h]

variable {close : Char}

theorem nextItem_close (hclose : isBlank close = false) (first : Bool) (rest : List Char) :
    nextItem close first (close :: rest) = .ok (.inr rest) := by
  simp [nextItem, skipBlanks_cons hclose]

theorem nextItem_first {text : List Char} (h : Begins close text) (rest : List Char) :
    nextItem close true (text ++ rest) = .ok (.inl (text ++ rest)) := by
  obtain ⟨c, tail, rfl, hblank, hc⟩ := h
  simp [nextItem, skipBlanks_cons hblank, hc]

theorem nextItem_follower (hcomma : ',' ≠ close) {text : List Char} (h : Begins close text)
    (rest : List Char) : nextItem close false (',' :: text ++ rest) = .ok (.inl (text ++ rest)) := by
  obtain ⟨c, tail, rfl, hblank, hc⟩ := h
  have hskip : skipBlanks (',' :: c :: (tail ++ rest)) = ',' :: c :: (tail ++ rest) :=
    skipBlanks_cons rfl _
  simp [nextItem, hskip, skipBlanks_cons hblank, hc, hcomma]

variable {α : Type} {item : List Char → Except Fault (α × List Char)} {text : α → List Char}

/-- The items behind the first are read back, as long as the clock has more characters than there are
items. -/
theorem sequenceOnto_followers (hclose : isBlank close = false) (hcomma : ',' ≠ close)
    {items : List α} (hbegins : ∀ a ∈ items, Begins close (text a))
    (hitem : ∀ a ∈ items, ∀ rest, item (text a ++ rest) = .ok (a, rest)) {clock : List Char}
    (hclock : items.length < clock.length) {read : List α} (hread : read ≠ []) (rest : List Char) :
    sequenceOnto close item clock read (followers close (items.map text) ++ rest) =
      .ok (read.reverse ++ items, rest) := by
  have hfirst : read.isEmpty = false := by simpa using hread
  -- each item takes one character off the clock
  induction items generalizing clock read with
  | nil =>
    obtain ⟨tick, clock, rfl⟩ := List.exists_cons_of_length_pos (by omega : 0 < clock.length)
    simp [sequenceOnto, followers, nextItem_close hclose]
  | cons a items ih =>
    obtain ⟨tick, clock, rfl⟩ := List.exists_cons_of_length_pos (by omega : 0 < clock.length)
    have hnext := nextItem_follower hcomma (hbegins a (by simp))
      (followers close (items.map text) ++ rest)
    rw [List.map_cons, followers, List.append_assoc, sequenceOnto, hfirst, hnext]
    simp only [hitem a (by simp)]
    rw [ih (fun b hb => hbegins b (by simp [hb])) (fun b hb => hitem b (by simp [hb]))
      (by simpa using hclock) (by simp) (by simp)]
    simp

theorem length_lt_followers (close : Char) (texts : List (List Char)) :
    texts.length < (followers close texts).length := by
  induction texts with
  | nil => simp [followers]
  | cons text texts ih =>
    simp only [followers, List.length_cons, List.length_append]
    omega

/-- **A sequence** is read back when each of its items is. -/
theorem readSequence_joined (hclose : isBlank close = false) (hcomma : ',' ≠ close)
    {items : List α} (hbegins : ∀ a ∈ items, Begins close (text a))
    (hitem : ∀ a ∈ items, ∀ rest, item (text a ++ rest) = .ok (a, rest)) (rest : List Char) :
    readSequence close item (joined close (items.map text) ++ rest) = .ok (items, rest) := by
  cases items with
  | nil => simp [readSequence, sequenceOnto, joined, nextItem_close hclose]
  | cons a items =>
    have hfirst := nextItem_first (hbegins a (by simp)) (followers close (items.map text) ++ rest)
    have hfollowers := length_lt_followers close (items.map text)
    rw [List.length_map] at hfollowers
    rw [List.map_cons, joined_cons, List.append_assoc, readSequence]
    obtain ⟨c, tail, htext, _⟩ := hbegins a (by simp)
    rw [htext, List.cons_append, sequenceOnto, ← List.cons_append, ← htext, List.isEmpty_nil, hfirst]
    simp only [hitem a (by simp)]
    rw [sequenceOnto_followers hclose hcomma (fun b hb => hbegins b (by simp [hb]))
      (fun b hb => hitem b (by simp [hb])) ?_ (by simp)]
    · simp
    · simp only [List.length_append]
      omega

/-! ## Values -/

/-- A value without numbers, nested at most so many levels deep. -/
def Plain : Nat → Json → Prop
  | _, .null => True
  | _, .bool _ => True
  | _, .string _ => True
  | _, .number _ => False
  | 0, .array _ => False
  | 0, .object _ => False
  | room + 1, .array items => ∀ item ∈ items, Plain room item
  | room + 1, .object members => ∀ member ∈ members, Plain room member.2

/-- A member as it is written. -/
def writeMember (member : String × Json) : List Char :=
  writeString member.1 ++ ':' :: write member.2

theorem writeItems_eq (items : List Json) : writeItems items = joined ']' (items.map write) := by
  induction items with
  | nil => rw [writeItems]; rfl
  | cons item items ih =>
    cases items with
    | nil => rw [writeItems]; rfl
    | cons next items =>
      rw [writeItems, ih]
      · simp only [List.map_cons, joined_cons_cons]
      · simp

theorem writeMembers_eq (members : List (String × Json)) :
    writeMembers members = joined '\x7d' (members.map writeMember) := by
  induction members with
  | nil => rw [writeMembers]; rfl
  | cons member members ih =>
    obtain ⟨name, value⟩ := member
    cases members with
    | nil => rw [writeMembers]; simp [joined, writeMember]
    | cons next members =>
      rw [writeMembers, ih]
      · simp only [List.map_cons, joined_cons_cons, writeMember, List.append_assoc, List.cons_append]
      · simp

theorem begins_writeString (close : Char) (h : '"' ≠ close) (text : String) (rest : List Char) :
    Begins close (writeString text ++ rest) :=
  ⟨'"', _, rfl, rfl, h⟩

theorem begins_write {room : Nat} {value : Json} (h : Plain room value) :
    Begins ']' (write value) := by
  cases value with
  | null => rw [write]; exact ⟨'n', _, rfl, rfl, by decide⟩
  | bool value => cases value <;> rw [write] <;> exact ⟨_, _, rfl, rfl, by decide⟩
  | number value => cases room <;> exact h.elim
  | string text => rw [write]; exact ⟨'"', _, rfl, rfl, by decide⟩
  | array items => rw [write]; exact ⟨'[', _, rfl, rfl, by decide⟩
  | object members => rw [write]; exact ⟨'\x7b', _, rfl, rfl, by decide⟩

theorem readMember_writeMember {value : List Char → Except Fault (Json × List Char)}
    {member : String × Json} (h : ∀ rest, value (write member.2 ++ rest) = .ok (member.2, rest))
    (rest : List Char) : readMember value (writeMember member ++ rest) = .ok (member, rest) := by
  obtain ⟨name, inner⟩ := member
  have hname := readString_writeString name (':' :: (write inner ++ rest))
  have hcolon : expectColon (':' :: (write inner ++ rest)) = .ok (write inner ++ rest) := by
    simp [expectColon, skipBlanks_cons (c := ':') rfl]
  simp only [writeMember, writeString, List.append_assoc, List.cons_append, List.nil_append,
    readMember, if_true, hname, hcolon, bind, Except.bind, h]

theorem readValue_string (room : Nat) (text : String) (rest : List Char) :
    readValue room (writeString text ++ rest) = .ok (.string text, rest) := by
  have hread := readString_writeString text rest
  rw [readValue.eq_def]
  simp [writeString, skipBlanks_cons (c := '"') rfl, hread, bind, Except.bind]

/-- **A value without numbers is read back** from the text it is written as, and what follows the text
is left over. -/
theorem readValue_write {room : Nat} {value : Json} (h : Plain room value) (rest : List Char) :
    readValue room (write value ++ rest) = .ok (value, rest) := by
  -- the items of an array or an object are nested one level less deep
  induction room generalizing value rest with
  | zero =>
    cases value with
    | null => rw [write]; rfl
    | bool value => cases value <;> rw [write] <;> rfl
    | string text => rw [write]; exact readValue_string 0 text rest
    | number => exact h.elim
    | array => exact h.elim
    | object => exact h.elim
  | succ room ih =>
    cases value with
    | null => rw [write]; rfl
    | bool value => cases value <;> rw [write] <;> rfl
    | string text => rw [write]; exact readValue_string (room + 1) text rest
    | number => exact h.elim
    | array items =>
      have hread : readSequence ']' (readValue room) (joined ']' (items.map write) ++ rest) =
          .ok (items, rest) :=
        readSequence_joined rfl (by decide) (fun item hi => begins_write (h item hi))
          (fun item hi rest => ih (h item hi) rest) rest
      rw [write, writeItems_eq, readValue, List.cons_append, skipBlanks_cons rfl]
      simp [hread, bind, Except.bind]
    | object members =>
      have hread : readSequence '\x7d' (readMember (readValue room))
          (joined '\x7d' (members.map writeMember) ++ rest) = .ok (members, rest) :=
        readSequence_joined rfl (by decide)
          (fun member _ => begins_writeString _ (by decide) member.1 _)
          (fun member hm => readMember_writeMember fun rest => ih (h member hm) rest) rest
      rw [write, writeMembers_eq, readValue, List.cons_append, skipBlanks_cons rfl]
      simp [hread, bind, Except.bind]

/-- A value without numbers is the value of the text it is written as. -/
theorem parse?_render {value : Json} (h : Plain maxDepth value) :
    parse? value.render = some value := by
  have hread := readValue_write h []
  rw [List.append_nil] at hread
  simp [parse?, parseWithin, render, hread, skipBlanks, bind, Except.bind, Except.toOption]

end ServiceDirectory.Json
