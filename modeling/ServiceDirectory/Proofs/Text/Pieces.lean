import Mathlib.Data.List.Infix
import Mathlib.Data.List.TakeWhile
import ServiceDirectory.Proofs.Text.Cut
import ServiceDirectory.Text.Blank

/-!
# Pieces, words and blanks

What it is to split a text at a separator (`IsSplit`), to be the words of a text (`IsWords`) and to be a
text without the blanks around it (`IsTrimmed`) is said without a way to find them.  There is one such
result for every text, and the lines, pieces, words and trimmed texts that are computed are these.
-/

namespace ServiceDirectory.Text

variable {c : Char} {text line piece word trimmed : List Char} {pieces found : List (List Char)}

/-! ## Pieces -/

/-- The pieces of a text between the occurrences of a separator. -/
structure IsSplit (separator text : List Char) (pieces : List (List Char)) : Prop where
  nonempty : pieces ≠ []
  text_eq : separator.intercalate pieces = text
  free : ∀ piece ∈ pieces, ¬ separator <:+: piece

theorem not_mem_of_mem_splitOn (h : piece ∈ text.splitOn c) : c ∉ piece := by
  induction text generalizing piece with
  | nil =>
    rw [List.splitOn_nil, List.mem_singleton] at h
    rw [h]
    exact List.not_mem_nil
  | cons d text ih =>
    rw [List.splitOn, List.splitOnP_cons_eq_if_modifyHead] at h
    split at h
    · rcases List.mem_cons.mp h with rfl | h
      · exact List.not_mem_nil
      · exact ih h
    next hd =>
      have hne : c ≠ d := fun heq => hd (beq_iff_eq.mpr heq.symm)
      cases hs : text.splitOn c with
      | nil => exact (List.splitOn_ne_nil c text hs).elim
      | cons first others =>
        rw [List.splitOn] at hs
        rw [hs, List.modifyHead_cons] at h
        have hall : ∀ piece ∈ first :: others, c ∉ piece := fun piece hp => ih (by rwa [List.splitOn, hs])
        rcases List.mem_cons.mp h with rfl | h
        · exact List.not_mem_cons_of_ne_of_not_mem hne (hall first List.mem_cons_self)
        · exact hall piece (List.mem_cons_of_mem _ h)

/-- What stands in a piece stands in the text. -/
theorem mem_intercalate {separator : List Char} (hp : piece ∈ pieces) (hc : c ∈ piece) :
    c ∈ separator.intercalate pieces := by
  induction pieces with
  | nil => cases hp
  | cons first pieces ih =>
    cases pieces with
    | nil =>
      rw [List.intercalate_singleton, ← List.mem_singleton.mp hp]
      exact hc
    | cons second pieces =>
      rw [List.intercalate_cons_cons]
      rcases List.mem_cons.mp hp with rfl | hp
      · exact List.mem_append_left _ (List.mem_append_left _ hc)
      · exact List.mem_append_right _ (ih hp)

/-- The pieces between the occurrences of a character. -/
theorem splitOn_eq_iff : text.splitOn c = pieces ↔ IsSplit [c] text pieces := by
  constructor
  · rintro rfl
    refine ⟨List.splitOn_ne_nil c text, List.intercalate_splitOn c, fun piece hp => ?_⟩
    rw [List.singleton_infix_iff]
    exact not_mem_of_mem_splitOn hp
  · rintro ⟨hne, rfl, hfree⟩
    refine List.splitOn_intercalate c (fun piece hp => ?_) hne
    rw [← List.singleton_infix_iff]
    exact hfree piece hp

/-! ## Lines -/

/-- What ends a line. -/
def lineEnd : List Char := ['\r', '\n']

theorem linesOnto_ne_nil (line text : List Char) : linesOnto line text ≠ [] := by
  fun_induction linesOnto line text with
  | case1 line => exact List.cons_ne_nil _ _
  | case2 line text ih => exact List.cons_ne_nil _ _
  | case3 line c text _ ih => exact ih

theorem intercalate_linesOnto (line text : List Char) :
    lineEnd.intercalate (linesOnto line text) = line.reverse ++ text := by
  fun_induction linesOnto line text with
  | case1 line => rw [List.intercalate_singleton, List.append_nil]
  | case2 line text ih =>
    rw [List.intercalate_cons_of_ne_nil (linesOnto_ne_nil [] text), ih, List.append_assoc]
    rfl
  | case3 line c text _ ih =>
    rw [ih, List.reverse_cons, List.append_assoc]
    rfl

/-- The end of a line stands neither in what is read of it, which stands in reverse, nor across its end. -/
theorem not_infix_of_mem_linesOnto (hline : ¬ lineEnd.reverse <:+: line)
    (hcross : ¬ (line.head? = some '\r' ∧ text.head? = some '\n')) :
    ∀ piece ∈ linesOnto line text, ¬ lineEnd <:+: piece := by
  have hdone : ∀ {line : List Char}, ¬ lineEnd.reverse <:+: line → ¬ lineEnd <:+: line.reverse := by
    intro line hline hstands
    exact hline (by rwa [← List.reverse_infix, List.reverse_reverse])
  fun_induction linesOnto line text with
  | case1 line => exact fun piece hp => List.mem_singleton.mp hp ▸ hdone hline
  | case2 line text ih =>
    intro piece hp
    rcases List.mem_cons.mp hp with rfl | hp
    · exact hdone hline
    · exact ih (by decide) (fun hhead => nomatch hhead.1) piece hp
  | case3 line c text hends ih =>
    refine ih ?_ ?_
    · rw [List.infix_cons_iff]
      rintro (⟨rest, heq⟩ | hstands)
      · obtain ⟨rfl, rfl⟩ := List.cons.inj heq
        exact hcross ⟨rfl, rfl⟩
      · exact hline hstands
    · rintro ⟨hfirst, hsecond⟩
      obtain ⟨rest, rfl⟩ := List.head?_eq_some_iff.mp hsecond
      exact hends rest (Option.some.inj hfirst) rfl

theorem linesOnto_cons (h : ¬ (c = '\r' ∧ text.head? = some '\n')) (line : List Char) :
    linesOnto line (c :: text) = linesOnto (c :: line) text := by
  rw [linesOnto]
  rintro rest rfl rfl
  exact h ⟨rfl, rfl⟩

/-- The end of a line does not begin a text that has none of it, whatever follows behind. -/
theorem not_starts_of_free {rest : List Char} (h : ¬ lineEnd <:+: c :: text)
    (hrest : rest.head? ≠ some '\n') : ¬ (c = '\r' ∧ (text ++ rest).head? = some '\n') := by
  rintro ⟨rfl, hsecond⟩
  cases text with
  | nil => exact hrest hsecond
  | cons d text =>
    obtain rfl := Option.some.inj hsecond
    exact h ⟨[], text, rfl⟩

theorem linesOnto_of_free (h : ¬ lineEnd <:+: text) (line : List Char) :
    linesOnto line text = [line.reverse ++ text] := by
  induction text generalizing line with
  | nil => rw [linesOnto, List.append_nil]
  | cons c text ih =>
    have hstarts : ¬ (c = '\r' ∧ (text ++ []).head? = some '\n') :=
      not_starts_of_free h fun hhead => nomatch hhead
    rw [List.append_nil] at hstarts
    rw [linesOnto_cons hstarts, ih fun hstands => h (List.infix_cons hstands), List.reverse_cons,
      List.append_assoc]
    rfl

theorem linesOnto_append (h : ¬ lineEnd <:+: text) (line rest : List Char) :
    linesOnto line (text ++ lineEnd ++ rest) = (line.reverse ++ text) :: lines rest := by
  induction text generalizing line with
  | nil =>
    rw [List.append_nil]
    rfl
  | cons c text ih =>
    have hstarts : ¬ (c = '\r' ∧ (text ++ (lineEnd ++ rest)).head? = some '\n') :=
      not_starts_of_free h fun hhead => nomatch hhead
    rw [← List.append_assoc] at hstarts
    rw [List.cons_append, List.cons_append, linesOnto_cons hstarts,
      ih fun hstands => h (List.infix_cons hstands), List.reverse_cons, List.append_assoc]
    rfl

/-- **The lines of a text** are its pieces between the line ends. -/
theorem lines_eq_iff : lines text = pieces ↔ IsSplit lineEnd text pieces := by
  constructor
  · rintro rfl
    refine ⟨linesOnto_ne_nil [] text, intercalate_linesOnto [] text, ?_⟩
    exact not_infix_of_mem_linesOnto (by decide) fun hhead => nomatch hhead.1
  · rintro ⟨hne, rfl, hfree⟩
    induction pieces with
    | nil => exact (hne rfl).elim
    | cons first others ih =>
      have hfirst := hfree first List.mem_cons_self
      cases others with
      | nil =>
        rw [List.intercalate_singleton]
        exact linesOnto_of_free hfirst []
      | cons next others =>
        have hothers := ih (List.cons_ne_nil _ _) fun piece hp => hfree piece (List.mem_cons_of_mem _ hp)
        rw [List.intercalate_cons_cons, lines, linesOnto_append hfirst, hothers]
        rfl

/-! ## Words -/

/-- Every text begins with characters of a kind, and the next one is of another. -/
theorem exists_cut (p : Char → Bool) (text : List Char) :
    ∃ front rest, text = front ++ rest ∧ (∀ c ∈ front, p c = true) ∧
      ∀ c ∈ rest.head?, p c = false := by
  refine ⟨text.takeWhile p, text.dropWhile p, List.takeWhile_append_dropWhile.symm,
    fun c hc => List.mem_takeWhile_imp hc, fun c hc => ?_⟩
  have hhead := List.head?_dropWhile_not p text
  rw [Option.mem_def.mp hc] at hhead
  exact hhead

/-- The words of a text: there are blanks, then a word and, unless the text ends here, a blank behind it,
and so on. -/
inductive IsWords : List Char → List (List Char) → Prop
  | nil {text : List Char} (blank : ∀ c ∈ text, isAsciiBlank c = true) : IsWords text []
  | cons {front word back : List Char} {words : List (List Char)}
      (blank : ∀ c ∈ front, isAsciiBlank c = true) (nonempty : word ≠ [])
      (solid : ∀ c ∈ word, isAsciiBlank c = false) (ends : ∀ c ∈ back.head?, isAsciiBlank c = true)
      (others : IsWords back words) : IsWords (front ++ word ++ back) (word :: words)

theorem words_of_blank (h : ∀ c ∈ text, isAsciiBlank c = true) (rest : List Char) :
    words (text ++ rest) = words rest := by
  induction text with
  | nil => rfl
  | cons c text ih =>
    have hblank := h c List.mem_cons_self
    rw [List.cons_append, words, List.splitOnP_cons_eq_if_modifyHead, if_pos hblank,
      List.filter_cons_of_neg (by decide)]
    exact ih fun d hd => h d (List.mem_cons_of_mem _ hd)

theorem words_of_solid (hne : word ≠ []) (hsolid : ∀ c ∈ word, isAsciiBlank c = false)
    {back : List Char} (hends : ∀ c ∈ back.head?, isAsciiBlank c = true) :
    words (word ++ back) = word :: words back := by
  have hkeep : ∀ pieces : List (List Char),
      (word :: pieces).filter (· ≠ []) = word :: pieces.filter (· ≠ []) :=
    fun pieces => List.filter_cons_of_pos (decide_eq_true hne)
  cases back with
  | nil =>
    rw [List.append_nil, words, List.splitOnP_eq_singleton hsolid]
    exact hkeep []
  | cons c back =>
    have hblank := hends c rfl
    rw [words, List.splitOnP_append_cons_of_forall_mem hsolid c hblank, hkeep]
    have hfront : ∀ d ∈ [c], isAsciiBlank d = true := fun d hd => List.mem_singleton.mp hd ▸ hblank
    exact congrArg (word :: ·) (words_of_blank hfront back).symm

theorem IsWords.words_eq (h : IsWords text found) : words text = found := by
  induction h with
  | nil blank =>
    rename_i text
    have hall := words_of_blank blank []
    rw [List.append_nil] at hall
    rw [hall]
    rfl
  | cons blank nonempty solid ends _ ih =>
    rw [List.append_assoc, words_of_blank blank, words_of_solid nonempty solid ends, ih]

theorem exists_isWords (text : List Char) : ∃ found, IsWords text found := by
  induction hn : text.length using Nat.strongRecOn generalizing text with
  | ind n ih =>
    obtain ⟨front, rest, rfl, hfront, hrest⟩ := exists_cut isAsciiBlank text
    cases rest with
    | nil =>
      rw [List.append_nil]
      exact ⟨[], .nil hfront⟩
    | cons c rest =>
      have hsolid := hrest c rfl
      obtain ⟨word, back, heq, hword, hback⟩ := exists_cut (fun d => !isAsciiBlank d) (c :: rest)
      have hne : word ≠ [] := by
        rintro rfl
        rw [List.nil_append] at heq
        simp [← heq, hsolid] at hback
      have hlength := List.length_pos_iff.mpr hne
      rw [heq, ← List.append_assoc] at hn ⊢
      simp only [List.length_append] at hn
      obtain ⟨found, hfound⟩ := ih back.length (by omega) back rfl
      refine ⟨word :: found, .cons hfront hne ?_ ?_ hfound⟩
      · exact fun d hd => Bool.not_eq_true' _ ▸ hword d hd
      · exact fun d hd => Bool.not_eq_false' _ ▸ hback d hd

/-- **The words of a text** are what stands between its blanks. -/
theorem words_eq_iff : words text = found ↔ IsWords text found := by
  constructor
  · rintro rfl
    obtain ⟨found, hfound⟩ := exists_isWords text
    exact hfound.words_eq ▸ hfound
  · exact IsWords.words_eq

/-! ## Blanks around a text -/

/-- A text without the blanks at both ends of another. -/
def IsTrimmed (text trimmed : List Char) : Prop :=
  ∃ front back, text = front ++ trimmed ++ back ∧ (∀ c ∈ front, isBlank c = true) ∧
    (∀ c ∈ back, isBlank c = true) ∧ (∀ c ∈ trimmed.head?, isBlank c = false) ∧
    ∀ c ∈ trimmed.getLast?, isBlank c = false

theorem trimFront_append {front rest : List Char} (hfront : ∀ c ∈ front, isBlank c = true)
    (hrest : ∀ c ∈ rest.head?, isBlank c = false) : trimFront (front ++ rest) = rest := by
  rw [trimFront, List.dropWhile_append_of_pos hfront]
  cases rest with
  | nil => rfl
  | cons c rest => rw [List.dropWhile_cons_of_neg (by simp [hrest c rfl])]

theorem IsTrimmed.trim_eq (h : IsTrimmed text trimmed) : trim text = trimmed := by
  obtain ⟨front, back, rfl, hfront, hback, hfirst, hlast⟩ := h
  cases trimmed with
  | nil =>
    have hall : ∀ c ∈ front ++ [] ++ back, isBlank c = true := by
      intro c hc
      rw [List.append_nil] at hc
      exact (List.mem_append.mp hc).elim (hfront c) (hback c)
    have hnone : trimFront (front ++ [] ++ back ++ []) = [] :=
      trimFront_append hall fun c hc => nomatch hc
    rw [List.append_nil] at hnone
    rw [trim, hnone]
    rfl
  | cons c trimmed =>
    have hstart : ∀ d ∈ (c :: trimmed ++ back).head?, isBlank d = false := hfirst
    have hreverse : ∀ d ∈ back.reverse, isBlank d = true :=
      fun d hd => hback d (List.mem_reverse.mp hd)
    rw [trim, List.append_assoc, trimFront_append hfront hstart, List.reverse_append,
      trimFront_append hreverse (by rwa [List.head?_reverse]), List.reverse_reverse]

theorem exists_isTrimmed (text : List Char) : ∃ trimmed, IsTrimmed text trimmed := by
  obtain ⟨front, rest, rfl, hfront, hrest⟩ := exists_cut isBlank text
  obtain ⟨back, trimmed, heq, hback, hlast⟩ := exists_cut isBlank rest.reverse
  have hrest_eq : rest = trimmed.reverse ++ back.reverse := by
    rw [← List.reverse_append, ← heq, List.reverse_reverse]
  subst hrest_eq
  refine ⟨trimmed.reverse, front, back.reverse, (List.append_assoc _ _ _).symm, hfront,
    fun c hc => hback c (List.mem_reverse.mp hc), ?_, ?_⟩
  · intro c hc
    refine hrest c ?_
    rw [List.head?_append, Option.mem_def.mp hc]
    rfl
  · rwa [List.getLast?_reverse]

/-- **A trimmed text** is what is left without the blanks. -/
theorem trim_eq_iff : trim text = trimmed ↔ IsTrimmed text trimmed := by
  constructor
  · rintro rfl
    obtain ⟨trimmed, htrimmed⟩ := exists_isTrimmed text
    exact htrimmed.trim_eq ▸ htrimmed
  · exact IsTrimmed.trim_eq

end ServiceDirectory.Text
