import Mathlib.Data.List.TakeWhile
import ServiceDirectory.Json.Reader
import ServiceDirectory.Proofs.Results

/-!
# Characters outside of strings

Outside of strings a document of JSON has blanks, digits and a few marks (`IsBare`).  Without a double
quote there is no string and so no other character (`forall_bare_of_parse?`); in particular, there is no
apostrophe.

Every reader takes its value from the front of a text and leaves the rest.  What is said of each is that it
takes such characters only (`ReadsBare`), and one after the other they do so as well (`TakesBare.trans`).
-/

namespace ServiceDirectory.Json

/-! ## Bare characters -/

/-- The signs, points and brackets between values and in numbers, and the letters of the words and of an
exponent. -/
def marks : List Char :=
  ['[', ']', '\x7b', '\x7d', ':', ',', '+', '-', '.', 'E', 'e', 'n', 'u', 'l', 't', 'r', 'f', 'a', 's']

/-- A character that may stand outside of strings. -/
def IsBare (c : Char) : Prop := isBlank c = true ∨ c.isDigit = true ∨ c ∈ marks

/-- What is taken from the front of a text to leave the rest are characters that may stand outside of
strings. -/
def TakesBare (text rest : List Char) : Prop := ∃ taken, text = taken ++ rest ∧ ∀ c ∈ taken, IsBare c

/-- A reader takes no other characters from a text without double quotes. -/
def ReadsBare {α : Type} (read : List Char → Except Fault (α × List Char)) : Prop :=
  ∀ text a rest, '"' ∉ text → read text = .ok (a, rest) → TakesBare text rest

variable {text middle rest : List Char} {c : Char} {α : Type}

namespace TakesBare

theorem refl (text : List Char) : TakesBare text text := ⟨[], rfl, nofun⟩

theorem trans (h : TakesBare text middle) (h' : TakesBare middle rest) : TakesBare text rest := by
  obtain ⟨front, rfl, hfront⟩ := h
  obtain ⟨back, rfl, hback⟩ := h'
  refine ⟨front ++ back, (List.append_assoc ..).symm, ?_⟩
  intro c hc
  rcases List.mem_append.mp hc with hc | hc
  · exact hfront c hc
  · exact hback c hc

theorem cons (hc : IsBare c) (h : TakesBare text rest) : TakesBare (c :: text) rest := by
  obtain ⟨taken, rfl, htaken⟩ := h
  exact ⟨c :: taken, rfl, List.forall_mem_cons.mpr ⟨hc, htaken⟩⟩

theorem dropWhile {p : Char → Bool} (h : ∀ c, p c = true → IsBare c) (text : List Char) :
    TakesBare text (text.dropWhile p) :=
  ⟨text.takeWhile p, List.takeWhile_append_dropWhile.symm, fun c hc => h c (List.mem_takeWhile_imp hc)⟩

theorem not_mem (h : TakesBare text rest) (hc : c ∉ text) : c ∉ rest := by
  obtain ⟨taken, rfl, -⟩ := h
  exact fun hmem => hc (List.mem_append_right _ hmem)

/-- When all is taken, all are such characters. -/
theorem forall_bare (h : TakesBare text []) : ∀ c ∈ text, IsBare c := by
  obtain ⟨taken, rfl, htaken⟩ := h
  rwa [List.append_nil]

end TakesBare

theorem takesBare_skipBlanks (text : List Char) : TakesBare text (skipBlanks text) :=
  .dropWhile (fun _ hc => .inl hc) text

theorem takesBare_mark (hc : c ∈ marks) (text : List Char) : TakesBare (c :: text) text :=
  .cons (.inr (.inr hc)) (.refl text)

/-- A mark behind blanks. -/
theorem takesBare_of_skipBlanks (h : skipBlanks text = c :: rest) (hc : c ∈ marks) :
    TakesBare text rest := by
  have hskip := takesBare_skipBlanks text
  rw [h] at hskip
  exact hskip.trans (takesBare_mark hc rest)

/-! ## Words and numbers -/

theorem expectLetters_eq_ok {letters : List Char} (h : expectLetters letters text = .ok rest) :
    text = letters ++ rest := by
  induction letters generalizing text with
  | nil =>
    rw [expectLetters] at h
    exact Except.ok.inj h
  | cons w letters ih =>
    cases text with
    | nil => cases h
    | cons c text =>
      rw [expectLetters] at h
      split at h
      · next heq => rw [heq, ih h, List.cons_append]
      · cases h

theorem takesBare_expectLetters {letters : List Char} (hletters : ∀ c ∈ letters, c ∈ marks)
    (h : expectLetters letters text = .ok rest) : TakesBare text rest :=
  ⟨letters, expectLetters_eq_ok h, fun c hc => .inr (.inr (hletters c hc))⟩

theorem readsBare_readDigits : ReadsBare readDigits := by
  intro text digits rest _ h
  rw [readDigits.eq_def] at h
  split at h
  · cases h
  · split at h
    · obtain ⟨-, rfl⟩ := Prod.mk.inj (Except.ok.inj h)
      exact .dropWhile (fun _ hc => .inr (.inl hc)) _
    · cases h

theorem readsBare_readWhole : ReadsBare readWhole := by
  intro text digits rest hquote h
  obtain ⟨⟨found, left⟩, hdigits, h⟩ := exists_of_bind_eq_ok h
  dsimp only at h
  split at h
  · cases h
  · obtain ⟨-, rfl⟩ := Prod.mk.inj (Except.ok.inj h)
    exact readsBare_readDigits text found left hquote hdigits

theorem readsBare_readFraction : ReadsBare readFraction := by
  intro text digits rest hquote h
  rw [readFraction.eq_def] at h
  split at h
  · next after =>
    obtain ⟨⟨found, left⟩, hdigits, h⟩ := exists_of_bind_eq_ok h
    obtain ⟨-, rfl⟩ := Prod.mk.inj (Except.ok.inj h)
    have hpoint := takesBare_mark (c := '.') (by decide) after
    exact hpoint.trans (readsBare_readDigits after found left (hpoint.not_mem hquote) hdigits)
  · obtain ⟨-, rfl⟩ := Prod.mk.inj (Except.ok.inj h)
    exact .refl text

theorem takesBare_readExponentSign (text : List Char) : TakesBare text (readExponentSign text).2 := by
  rw [readExponentSign.eq_def]
  split
  · exact takesBare_mark (by decide) _
  · exact takesBare_mark (by decide) _
  · exact .refl _

theorem readsBare_readExponent : ReadsBare readExponent := by
  intro text power rest hquote h
  rw [readExponent.eq_def] at h
  split at h
  · obtain ⟨-, rfl⟩ := Prod.mk.inj (Except.ok.inj h)
    exact .refl []
  · next c after =>
    split at h
    · next hletter =>
      have hmark : TakesBare (c :: after) after := by
        refine takesBare_mark ?_ after
        rcases hletter with rfl | rfl <;> decide
      have hsign := hmark.trans (takesBare_readExponentSign after)
      dsimp only at h
      obtain ⟨⟨found, left⟩, hdigits, h⟩ := exists_of_bind_eq_ok h
      obtain ⟨-, rfl⟩ := Prod.mk.inj (Except.ok.inj h)
      exact hsign.trans (readsBare_readDigits _ found left (hsign.not_mem hquote) hdigits)
    · obtain ⟨-, rfl⟩ := Prod.mk.inj (Except.ok.inj h)
      exact .refl _

theorem readsBare_readNumber (negative : Bool) : ReadsBare (readNumber negative) := by
  intro text value rest hquote h
  obtain ⟨⟨whole, afterWhole⟩, hwhole, h⟩ := exists_of_bind_eq_ok h
  obtain ⟨⟨fraction, afterFraction⟩, hfraction, h⟩ := exists_of_bind_eq_ok h
  obtain ⟨⟨power, afterExponent⟩, hexponent, h⟩ := exists_of_bind_eq_ok h
  have hfront := readsBare_readWhole _ _ _ hquote hwhole
  have hmiddle := hfront.trans (readsBare_readFraction _ _ _ (hfront.not_mem hquote) hfraction)
  have hall := hmiddle.trans (readsBare_readExponent _ _ _ (hmiddle.not_mem hquote) hexponent)
  dsimp only at h
  split at h
  · obtain ⟨-, rfl⟩ := Prod.mk.inj (Except.ok.inj h)
    exact hall
  · cases h

/-! ## Sequences and values -/

/-- A member has a name, so there is none without a double quote. -/
theorem readMember_ne_ok {value : List Char → Except Fault (α × List Char)}
    {result : (String × α) × List Char} (h : '"' ∉ text) : readMember value text ≠ .ok result := by
  rw [readMember.eq_def]
  split
  · exact nofun
  · next c rest =>
    have hc : c ≠ '"' := fun heq => h (heq ▸ List.mem_cons_self)
    rw [if_neg hc]
    exact nofun

theorem takesBare_nextItem {close : Char} (hclose : close ∈ marks) {first : Bool}
    {next : List Char ⊕ List Char} (h : nextItem close first text = .ok next) :
    TakesBare text (next.elim id id) := by
  rw [nextItem.eq_def] at h
  have hskip := takesBare_skipBlanks text
  split at h
  · cases h
  · next c rest hblanks =>
    split at h
    · next heq =>
      obtain rfl := Except.ok.inj h
      exact takesBare_of_skipBlanks hblanks (heq ▸ hclose)
    · split at h
      · obtain rfl := Except.ok.inj h
        exact hblanks ▸ hskip
      · split at h
        case isFalse => cases h
        next heq =>
        have hcomma : TakesBare text rest := takesBare_of_skipBlanks hblanks (heq ▸ by decide)
        split at h
        · cases h
        · next d after hmore =>
          split at h
          · cases h
          · obtain rfl := Except.ok.inj h
            exact hmore ▸ hcomma.trans (takesBare_skipBlanks rest)

theorem takesBare_sequenceOnto {close : Char} (hclose : close ∈ marks)
    {item : List Char → Except Fault (α × List Char)} (hitem : ReadsBare item) {clock : List Char}
    {read : List α} {result : List α × List Char} (hquote : '"' ∉ text)
    (h : sequenceOnto close item clock read text = .ok result) : TakesBare text result.2 := by
  induction clock generalizing read text with
  | nil => cases h
  | cons tick clock ih =>
    rw [sequenceOnto] at h
    split at h
    · cases h
    · next after hnext =>
      obtain rfl := Except.ok.inj h
      exact takesBare_nextItem hclose hnext
    · next start hnext =>
      have hstart : TakesBare text start := takesBare_nextItem hclose hnext
      split at h
      · cases h
      · next a after hread =>
        have hafter := hstart.trans (hitem start a after (hstart.not_mem hquote) hread)
        exact hafter.trans (ih (hafter.not_mem hquote) h)

theorem readsBare_readSequence {close : Char} (hclose : close ∈ marks)
    {item : List Char → Except Fault (α × List Char)} (hitem : ReadsBare item) :
    ReadsBare (readSequence close item) :=
  fun _ _ _ hquote h => takesBare_sequenceOnto hclose hitem hquote h

/-- What is made of a result does not matter. -/
theorem ReadsBare.takesBare {β : Type} {read : List Char → Except Fault (α × List Char)}
    (h : ReadsBare read) {make : α → β} {b : β} (hquote : '"' ∉ text)
    (hmade : (read text >>= fun found => .ok (make found.1, found.2)) = .ok (b, rest)) :
    TakesBare text rest := by
  obtain ⟨⟨a, left⟩, hread, hmade⟩ := exists_of_bind_eq_ok hmade
  obtain ⟨-, rfl⟩ := Prod.mk.inj (Except.ok.inj hmade)
  exact h text a left hquote hread

/-- **A value without double quotes** holds no character but those that stand outside of strings. -/
theorem readsBare_readValue (room : Nat) : ReadsBare (readValue room) := by
  -- the items of an array are nested one level less deep
  induction room using Nat.strongRecOn with
  | ind room ih =>
  intro text value rest hquote h
  rw [readValue.eq_def] at h
  split at h
  · cases h
  next c after hblanks =>
  have hfirst : TakesBare text (c :: after) := hblanks ▸ takesBare_skipBlanks text
  have hafter : c ∈ marks → TakesBare text after := takesBare_of_skipBlanks hblanks
  have hword : ∀ {letters : List Char} {word : Json}, (∀ d ∈ c :: letters, d ∈ marks) →
      (expectLetters letters after >>= fun left => .ok (word, left)) = .ok (value, rest) →
      TakesBare text rest := by
    intro letters word hletters h
    obtain ⟨left, hleft, h⟩ := exists_of_bind_eq_ok h
    obtain ⟨-, rfl⟩ := Prod.mk.inj (Except.ok.inj h)
    rw [List.forall_mem_cons] at hletters
    exact (hafter hletters.1).trans (takesBare_expectLetters hletters.2 hleft)
  split at h
  · next heq =>
    have hopen := hafter (heq ▸ by decide)
    split at h
    · cases h
    next room =>
    have hitem := ih room (Nat.lt_succ_self room)
    exact hopen.trans
      ((readsBare_readSequence (by decide) hitem).takesBare (hopen.not_mem hquote) h)
  split at h
  · next heq =>
    have hopen := hafter (heq ▸ by decide)
    split at h
    · cases h
    next room =>
    have hmember : ReadsBare (readMember (readValue room)) :=
      fun _ _ _ hnone hread => absurd hread (readMember_ne_ok hnone)
    exact hopen.trans
      ((readsBare_readSequence (by decide) hmember).takesBare (hopen.not_mem hquote) h)
  split at h
  · next heq => exact absurd (heq ▸ List.mem_cons_self) (hfirst.not_mem hquote)
  split at h
  · next heq => exact hword (heq ▸ by decide) h
  split at h
  · next heq => exact hword (heq ▸ by decide) h
  split at h
  · next heq => exact hword (heq ▸ by decide) h
  split at h
  · next heq =>
    have hsign := hafter (heq ▸ by decide)
    exact hsign.trans ((readsBare_readNumber true).takesBare (hsign.not_mem hquote) h)
  split at h
  · exact hfirst.trans ((readsBare_readNumber false).takesBare (hfirst.not_mem hquote) h)
  · cases h

/-- **A document without double quotes** holds no character but those that stand outside of strings. -/
theorem forall_bare_of_parse? {text : String} {value : Json} (hquote : '"' ∉ text.toList)
    (h : parse? text = some value) : ∀ c ∈ text.toList, IsBare c := by
  have hwithin : parseWithin maxDepth text.toList = .ok value := by
    rw [parse?] at h
    cases hp : parseWithin maxDepth text.toList with
    | error fault =>
      rw [hp] at h
      cases h
    | ok found =>
      rw [hp] at h
      exact congrArg Except.ok (Option.some.inj h)
  obtain ⟨⟨found, rest⟩, hread, hend⟩ := exists_of_bind_eq_ok hwithin
  dsimp only at hend
  split at hend
  case isFalse => cases hend
  next hblanks =>
  have hrest : TakesBare rest [] := hblanks ▸ takesBare_skipBlanks rest
  exact ((readsBare_readValue maxDepth _ found rest hquote hread).trans hrest).forall_bare

end ServiceDirectory.Json
