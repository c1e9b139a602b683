import Mathlib.Algebra.Ring.Nat
import Mathlib.Tactic.Common
import ServiceDirectory.Text.Cut

/-!
# Cuts and what stands between them

Where a delimiter is found in a text that was put together from its parts, and which characters the
pieces of a text can hold.
-/

namespace ServiceDirectory.Text

/-! ## Cuts at a character -/

/-- A cut at the last occurrence splits the text there, and the second part does not hold the
character. -/
theorem cutAtLast_eq_some_iff {c : Char} {text before after : List Char} :
    cutAtLast c text = some (before, after) ↔ text = before ++ c :: after ∧ c ∉ after := by
  simp only [cutAtLast, Option.map_eq_some_iff, Prod.exists, Prod.mk.injEq]
  constructor
  · rintro ⟨a, b, h, rfl, rfl⟩
    obtain ⟨ht, hc⟩ := cutAtFirst_eq_some_iff.mp h
    refine ⟨?_, by simpa using hc⟩
    rw [← List.reverse_reverse text, ht]
    simp
  · rintro ⟨rfl, hc⟩
    exact ⟨after.reverse, before.reverse, cutAtFirst_eq_some_iff.mpr ⟨by simp, by simpa using hc⟩,
      by simp, by simp⟩

/-! ## Cuts at a longer delimiter -/

/-- There is no cut exactly when the delimiter does not occur. -/
theorem cutAt_eq_none_iff {delimiter text : List Char} (hd : delimiter ≠ []) :
    cutAt delimiter text = none ↔ ¬ delimiter <:+: text := by
  suffices ∀ before, cutAtOnto delimiter before text = none ↔ ¬ delimiter <:+: text from this []
  induction text with
  | nil => simpa [cutAtOnto] using hd
  | cons c text ih =>
    intro before
    rw [cutAtOnto, List.infix_cons_iff, not_or, ← ih (c :: before), ← List.isPrefixOf_iff_prefix]
    split
    · next h => simp [h]
    · next h => simp [h]

/-- A delimiter is found behind a text that does not hold its first character. -/
theorem cutAt_append {c : Char} {delimiter before : List Char} (hc : c ∉ before)
    (after : List Char) :
    cutAt (c :: delimiter) (before ++ (c :: delimiter ++ after)) = some (before, after) := by
  suffices ∀ read, cutAtOnto (c :: delimiter) read (before ++ (c :: delimiter ++ after)) =
      some (read.reverse ++ before, after) from this []
  induction before with
  | nil =>
    intro read
    rw [List.nil_append, List.cons_append, cutAtOnto, if_pos]
    · simp
    · simp [List.isPrefixOf_iff_prefix]
  | cons d before ih =>
    intro read
    obtain ⟨hd, hbefore⟩ := not_or.mp (List.mem_cons.not.mp hc)
    rw [List.cons_append, cutAtOnto, if_neg, ih hbefore]
    · simp
    · simp [List.isPrefixOf, hd]

/-- A cut splits the text at the delimiter. -/
theorem eq_append_of_cutAt {delimiter text before after : List Char}
    (h : cutAt delimiter text = some (before, after)) : text = before ++ (delimiter ++ after) := by
  suffices ∀ read, cutAtOnto delimiter read text = some (before, after) →
      read.reverse ++ text = before ++ (delimiter ++ after) from this [] h
  clear h
  induction text with
  | nil => exact fun read h => nomatch h
  | cons c text ih =>
    intro read h
    rw [cutAtOnto] at h
    split at h
    next hfront =>
      obtain ⟨rest, hrest⟩ := List.isPrefixOf_iff_prefix.mp hfront
      obtain ⟨rfl, rfl⟩ := Prod.mk.inj (Option.some.inj h)
      rw [← hrest, List.drop_left]
    next =>
      rw [← ih _ h, List.reverse_cons, List.append_assoc]
      rfl

/-! ## Pieces between separators -/

theorem length_intercalate_le (separator : List Char) {bound : Nat} {pieces : List (List Char)}
    (h : ∀ piece ∈ pieces, piece.length ≤ bound) :
    (separator.intercalate pieces).length ≤ pieces.length * (bound + separator.length) := by
  induction pieces with
  | nil => simp
  | cons piece pieces ih =>
    have hpiece := h piece List.mem_cons_self
    have hrest := ih fun other ho => h other (List.mem_cons_of_mem _ ho)
    rw [List.length_cons, Nat.succ_mul]
    cases pieces with
    | nil =>
      rw [List.intercalate_singleton]
      omega
    | cons next pieces =>
      rw [List.intercalate_cons_cons, List.length_append, List.length_append]
      omega

/-- Every character other than the separator stands in some piece. -/
theorem exists_mem_splitOn {c separator : Char} {text : List Char} (hc : c ∈ text)
    (hne : c ≠ separator) : ∃ piece ∈ text.splitOn separator, c ∈ piece := by
  have hjoined : [separator].intercalate (text.splitOn separator) = text :=
    List.intercalate_splitOn separator
  rw [← hjoined] at hc
  generalize text.splitOn separator = pieces at hc
  induction pieces with
  | nil => simp [List.intercalate] at hc
  | cons piece pieces ih =>
    cases pieces with
    | nil => exact ⟨piece, by simp, by simpa [List.intercalate] using hc⟩
    | cons next pieces =>
      simp only [List.intercalate, List.intersperse_cons_cons, List.flatten_cons,
        List.mem_append, List.mem_singleton] at hc
      rcases hc with hc | hc | hc
      · exact ⟨piece, by simp, hc⟩
      · exact absurd hc hne
      · obtain ⟨found, hf, hm⟩ := ih (by simpa [List.intercalate] using hc)
        exact ⟨found, List.mem_cons_of_mem _ hf, hm⟩

end ServiceDirectory.Text
