import ServiceDirectory.Proofs.Json.Bare
import ServiceDirectory.Request

/-!
# Single quotes for double quotes

Where single quotes are allowed, nothing changes for texts that can be read without them, and a text
without apostrophes can be sent with apostrophes for its double quotes (`parse_lenient`).

A text with apostrophes and without double quotes is never JSON, as an apostrophe can only stand in a
string.  So the quotes of such a text, and of no other, are turned before it is read (`parse_true_eq`).
-/

namespace ServiceDirectory.Request

variable {text : String}

/-- A text with its double quotes turned into single quotes. -/
def singleQuoted (text : String) : String :=
  String.ofList (text.toList.map fun c => if c = '"' then '\'' else c)

theorem mem_singleQuoted {c : Char} :
    c ∈ (singleQuoted text).toList ↔ (c ∈ text.toList ∧ c ≠ '"') ∨ ('"' ∈ text.toList ∧ c = '\'') := by
  rw [singleQuoted, String.toList_ofList, List.mem_map]
  constructor
  · rintro ⟨d, hd, rfl⟩
    split
    · next heq => exact .inr ⟨heq ▸ hd, rfl⟩
    · next hne => exact .inl ⟨hd, hne⟩
  · rintro (⟨hc, hne⟩ | ⟨hquote, rfl⟩)
    · exact ⟨c, hc, if_neg hne⟩
    · exact ⟨'"', hquote, rfl⟩

/-- Turning the quotes back gives the text again, unless it had single quotes before. -/
theorem doubleQuoted_singleQuoted (h : '\'' ∉ text.toList) :
    doubleQuoted (singleQuoted text) = text := by
  have hback : ∀ c ∈ text.toList,
      (if (if c = '"' then '\'' else c) = '\'' then '"' else if c = '"' then '\'' else c) = c := by
    intro c hc
    have hsingle : c ≠ '\'' := fun heq => h (heq ▸ hc)
    by_cases hdouble : c = '"' <;> simp [hdouble, hsingle]
  rw [doubleQuoted, singleQuoted, String.toList_ofList, List.map_map]
  refine String.toList_injective ?_
  rw [String.toList_ofList]
  exact (List.map_congr_left hback).trans (List.map_id _)

/-- A text with apostrophes and without double quotes is not JSON. -/
theorem parse?_of_mayBeSingleQuoted (h : MayBeSingleQuoted text) : Json.parse? text = none := by
  refine Option.eq_none_iff_forall_ne_some.mpr fun value hvalue => ?_
  have hbare : Json.IsBare '\'' := Json.forall_bare_of_parse? h.2 hvalue '\'' h.1
  rcases hbare with hblank | hdigit | hmark
  · exact absurd hblank (by decide)
  · exact absurd hdigit (by decide)
  · exact absurd hmark (by decide)

/-- **Which text is read**: where single quotes are allowed, a text that has single quotes only is read with
its quotes turned, and any other text as it is. -/
theorem parse_true_eq (text : String) :
    parse true text = parse false (if MayBeSingleQuoted text then doubleQuoted text else text) := by
  by_cases h : MayBeSingleQuoted text
  · have hstrict : value? false (doubleQuoted text) = Json.parse? (doubleQuoted text) := by
      simp only [value?]
      split
      · next hvalue => exact hvalue.symm
      · next hnone =>
        rw [hnone]
        exact if_neg fun hboth => Bool.false_ne_true hboth.1
    have hlenient : value? true text = Json.parse? (doubleQuoted text) := by
      rw [value?, parse?_of_mayBeSingleQuoted h]
      exact if_pos ⟨rfl, h⟩
    rw [if_pos h, parse, parse, hlenient, hstrict]
  · rw [if_neg h, parse, parse, value?, value?]
    simp [h]

/-- **Allowing single quotes is harmless and enough.**  A text that is JSON, or has a double quote, or has no
apostrophe means the same as before.  A text without apostrophes may be sent with apostrophes for its double
quotes, and means the same, whether it is a request or not. -/
theorem parse_lenient :
    (∀ text : String, ((Json.parse? text).isSome = true ∨ '"' ∈ text.toList ∨ '\'' ∉ text.toList) →
        parse true text = parse false text) ∧
      ∀ text : String, '\'' ∉ text.toList → parse true (singleQuoted text) = parse false text := by
  refine ⟨fun text h => ?_, fun text h => ?_⟩
  · have hnot : ¬ MayBeSingleQuoted text := by
      intro hmay
      rcases h with hjson | hdouble | hsingle
      · rw [parse?_of_mayBeSingleQuoted hmay] at hjson
        cases hjson
      · exact hmay.2 hdouble
      · exact hsingle hmay.1
    rw [parse_true_eq, if_neg hnot]
  · rw [parse_true_eq]
    by_cases hdouble : '"' ∈ text.toList
    · have hmay : MayBeSingleQuoted (singleQuoted text) := by
        refine ⟨mem_singleQuoted.mpr (.inr ⟨hdouble, rfl⟩), fun hmem => ?_⟩
        rcases mem_singleQuoted.mp hmem with ⟨-, hne⟩ | ⟨-, heq⟩
        · exact hne rfl
        · exact absurd heq (by decide)
      rw [if_pos hmay, doubleQuoted_singleQuoted h]
    · -- there is nothing to turn
      have hnot : ¬ MayBeSingleQuoted (singleQuoted text) := by
        intro hmay
        rcases mem_singleQuoted.mp hmay.1 with ⟨hmem, -⟩ | ⟨hmem, -⟩
        · exact h hmem
        · exact hdouble hmem
      have hsame : singleQuoted text = text := by
        refine String.toList_injective ?_
        rw [singleQuoted, String.toList_ofList]
        refine (List.map_congr_left fun c hc => ?_).trans (List.map_id _)
        have hne : c ≠ '"' := fun heq => hdouble (heq ▸ hc)
        exact if_neg hne
      rw [if_neg hnot, hsame]

/-- Quotes are not turned in a text that has both. -/
example : (parse true "\x7b'request':\"list\"\x7d").name = "?" := by
  decide +kernel

end ServiceDirectory.Request
