/-!
# Cutting texts

A text is cut in two at the first or the last place where a delimiter stands, and a request head
into the lines that end in CR LF.  Nothing is lost but the delimiters.
-/

namespace ServiceDirectory.Text

/-- What stands before and after the first occurrence of a character. -/
def cutAtFirst (c : Char) (text : List Char) : Option (List Char × List Char) :=
  match text.dropWhile (· ≠ c) with
  | [] => none
  | _ :: after => some (text.takeWhile (· ≠ c), after)

/-- What stands before and after the last occurrence of a character. -/
def cutAtLast (c : Char) (text : List Char) : Option (List Char × List Char) :=
  (cutAtFirst c text.reverse).map fun (after, before) => (before.reverse, after.reverse)

/-- What stands before and after the first occurrence of a delimiter, found onto the characters
before, which stand in reverse. -/
def cutAtOnto (delimiter before : List Char) : List Char → Option (List Char × List Char)
  | [] => none
  | c :: text =>
    if delimiter.isPrefixOf (c :: text) then
      some (before.reverse, (c :: text).drop delimiter.length)
    else cutAtOnto delimiter (c :: before) text

/-- What stands before and after the first occurrence of a delimiter that is not empty. -/
def cutAt (delimiter text : List Char) : Option (List Char × List Char) :=
  cutAtOnto delimiter [] text

/-- The lines of a text that end in CR LF, the first of them begun already, in reverse. -/
def linesOnto (line : List Char) : List Char → List (List Char)
  | [] => [line.reverse]
  | '\r' :: '\n' :: text => line.reverse :: linesOnto [] text
  | c :: text => linesOnto (c :: line) text

/-- The pieces of a text between the occurrences of CR LF, of which there is always one more than of
these. -/
def lines (text : List Char) : List (List Char) := linesOnto [] text

/-- A cut at the first occurrence splits the text there, and the first part does not hold the
character. -/
theorem cutAtFirst_eq_some_iff {c : Char} {text before after : List Char} :
    cutAtFirst c text = some (before, after) ↔ text = before ++ c :: after ∧ c ∉ before := by
  induction text generalizing before with
  | nil => simp [cutAtFirst]
  | cons d text ih =>
    by_cases h : d = c
    · subst h
      cases before with
      | nil => simp [cutAtFirst]
      | cons e before =>
        simp only [cutAtFirst, List.dropWhile_cons, List.takeWhile_cons]
        simp
        rintro rfl _ h
        exact absurd rfl h
    · have step : cutAtFirst c (d :: text) =
          (cutAtFirst c text).map fun (b, a) => (d :: b, a) := by
        simp only [cutAtFirst, List.dropWhile_cons, List.takeWhile_cons, ne_eq, h,
          not_false_eq_true, decide_true, if_true]
        split <;> rfl
      rw [step]
      cases before with
      | nil => simp [h]
      | cons e before =>
        have := @ih before
        simp only [Option.map_eq_some_iff, Prod.exists, Prod.mk.injEq, List.cons.injEq,
          List.cons_append, List.mem_cons, not_or]
        constructor
        · rintro ⟨b, a, hc, ⟨rfl, rfl⟩, rfl⟩
          obtain ⟨h₁, h₂⟩ := ih.1 hc
          exact ⟨⟨rfl, h₁⟩, Ne.symm h, h₂⟩
        · rintro ⟨⟨rfl, h₁⟩, _, h₂⟩
          exact ⟨before, after, ih.2 ⟨h₁, h₂⟩, ⟨rfl, rfl⟩, rfl⟩

/-- There is no cut exactly when the character does not occur. -/
theorem cutAtFirst_eq_none_iff {c : Char} {text : List Char} :
    cutAtFirst c text = none ↔ c ∉ text := by
  induction text with
  | nil => simp [cutAtFirst]
  | cons d text ih =>
    by_cases h : d = c
    · subst h; simp [cutAtFirst]
    · rw [List.mem_cons, not_or, ← ih]
      simp only [cutAtFirst, List.dropWhile_cons, ne_eq, h, not_false_eq_true, decide_true, if_true]
      constructor
      · intro hc
        exact ⟨Ne.symm h, by revert hc; split <;> simp⟩
      · rintro ⟨_, hc⟩
        revert hc
        split <;> simp

end ServiceDirectory.Text
