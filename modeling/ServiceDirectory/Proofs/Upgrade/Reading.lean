import ServiceDirectory.Proofs.Results
import ServiceDirectory.Proofs.Text.Pieces
import ServiceDirectory.Upgrade.RequestHead

/-!
# What a request head says

The form of a request head is described here without a way to read it: the request line has three words
(`IsRequestLine`), a header line has a name, a colon and a value (`IsHeaderLine`), and a text reads as a head
(`Reads`) or its first bad line has a fault (`Faulty`).

Each part of the reader settles what it was given (`Settles`): it succeeds with what the one description
says and fails with what the other says, and there is nothing else that it does.
-/

namespace ServiceDirectory

open Text (IsSplit IsTrimmed IsWords lineEnd)

namespace Upgrade

/-! ## Lines -/

/-- A request line: three words between ASCII blanks. -/
def IsRequestLine (line : List Char) (words : String × String × String) : Prop :=
  IsWords line [words.1.toList, words.2.1.toList, words.2.2.toList]

/-- What is wrong with a request line. -/
inductive BadRequestLine (line : List Char) : HeadFault → Prop where
  | empty (line_eq : line = []) : BadRequestLine line .emptyRequestLine
  | words (nonempty : line ≠ []) (other : ∀ words, ¬ IsRequestLine line words) :
      BadRequestLine line .badRequestLine

/-- A header line: a name that is not blank, a colon, the first of the line, and a value.  The blanks around
the name and the value do not belong to them. -/
def IsHeaderLine (line : List Char) (header : String × String) : Prop :=
  ∃ before after, line = before ++ ':' :: after ∧ ':' ∉ before ∧
    IsTrimmed before header.1.toList ∧ header.1.toList ≠ [] ∧ IsTrimmed after header.2.toList

/-- What is wrong with a header line. -/
inductive BadHeaderLine (line : List Char) : HeadFault → Prop where
  | withoutColon (without : ':' ∉ line) : BadHeaderLine line .headerWithoutColon
  | withoutName {before after : List Char} (line_eq : line = before ++ ':' :: after)
      (first : ':' ∉ before) (blank : IsTrimmed before []) : BadHeaderLine line .emptyHeaderName

theorem isRequestLine_ofList {line method target version : List Char} :
    IsRequestLine line (String.ofList method, String.ofList target, String.ofList version) ↔
      Text.words line = [method, target, version] := by
  rw [IsRequestLine, String.toList_ofList, String.toList_ofList, String.toList_ofList,
    Text.words_eq_iff]

theorem not_isRequestLine_nil (words : String × String × String) : ¬ IsRequestLine [] words :=
  fun h => nomatch h.words_eq

theorem settles_requestLine (line : List Char) :
    Settles (RequestHead.requestLine line) (IsRequestLine line) (BadRequestLine line) := by
  unfold RequestHead.requestLine
  by_cases hline : line = []
  · rw [if_pos hline, hline]
    refine ⟨fun words => ⟨fun h => (nomatch h), fun h => (not_isRequestLine_nil words h).elim⟩,
      fun fault => ⟨?_, ?_⟩⟩
    · rintro ⟨⟩
      exact .empty rfl
    · rintro (_ | ⟨hne, _⟩)
      · rfl
      · exact (hne rfl).elim
  · rw [if_neg hline]
    refine ⟨fun words => ⟨?_, fun h => ?_⟩, fun fault => ⟨?_, ?_⟩⟩
    · split
      next method target version hwords =>
        rintro ⟨⟩
        exact isRequestLine_ofList.mpr hwords
      next => exact fun h => nomatch h
    · rw [h.words_eq]
      simp only [String.ofList_toList]
    · split
      next => exact fun h => nomatch h
      next hother =>
        rintro ⟨⟩
        exact .words hline fun words h => hother _ _ _ h.words_eq
    · rintro (hempty | ⟨-, hother⟩)
      · exact (hline hempty).elim
      · split
        next method target version hwords => exact (hother _ (isRequestLine_ofList.mpr hwords)).elim
        next => rfl

theorem settles_headerLine (line : List Char) :
    Settles (RequestHead.headerLine line) (IsHeaderLine line) (BadHeaderLine line) := by
  unfold RequestHead.headerLine
  cases hcut : Text.cutAtFirst ':' line with
  | none =>
    have hwithout := Text.cutAtFirst_eq_none_iff.mp hcut
    have hcolon : ∀ {before after : List Char}, line ≠ before ++ ':' :: after := by
      rintro before after rfl
      exact hwithout (List.mem_append_right _ List.mem_cons_self)
    refine ⟨fun header => ⟨fun h => (nomatch h), ?_⟩, fun fault => ⟨?_, ?_⟩⟩
    · rintro ⟨before, after, hline, -⟩
      exact (hcolon hline).elim
    · rintro ⟨⟩
      exact .withoutColon hwithout
    · rintro (_ | ⟨hline, _, _⟩)
      · rfl
      · exact (hcolon hline).elim
  | some parts =>
    obtain ⟨before, after⟩ := parts
    obtain ⟨hline, hfirst⟩ := Text.cutAtFirst_eq_some_iff.mp hcut
    -- there is only one way to cut the line at its first colon
    have hsame : ∀ {before' after' : List Char}, line = before' ++ ':' :: after' → ':' ∉ before' →
        before' = before ∧ after' = after := by
      intro before' after' hline' hfirst'
      have hcut' := Text.cutAtFirst_eq_some_iff.mpr ⟨hline', hfirst'⟩
      exact Prod.mk.inj (Option.some.inj (hcut'.symm.trans hcut))
    have hwith : ':' ∈ line := hline ▸ List.mem_append_right _ List.mem_cons_self
    by_cases hname : Text.trim before = []
    · simp only [if_pos hname]
      have hblank := Text.trim_eq_iff.mp hname
      refine ⟨fun header => ⟨fun h => (nomatch h), ?_⟩, fun fault => ⟨?_, ?_⟩⟩
      · rintro ⟨before', after', hline', hfirst', hname', hne, -⟩
        obtain ⟨rfl, -⟩ := hsame hline' hfirst'
        exact (hne (hname'.trim_eq.symm.trans hname)).elim
      · rintro ⟨⟩
        exact .withoutName hline hfirst hblank
      · rintro (hwithout | _)
        · exact (hwithout hwith).elim
        · rfl
    · simp only [if_neg hname]
      refine ⟨fun header => ⟨?_, ?_⟩, fun fault => ⟨fun h => (nomatch h), ?_⟩⟩
      · rintro ⟨⟩
        refine ⟨before, after, hline, hfirst, ?_, ?_, ?_⟩
        · rw [String.toList_ofList]
          exact Text.trim_eq_iff.mp rfl
        · rwa [String.toList_ofList]
        · rw [String.toList_ofList]
          exact Text.trim_eq_iff.mp rfl
      · rintro ⟨before', after', hline', hfirst', hname', -, hvalue'⟩
        obtain ⟨rfl, rfl⟩ := hsame hline' hfirst'
        rw [hname'.trim_eq, hvalue'.trim_eq, String.ofList_toList, String.ofList_toList]
      · rintro (hwithout | ⟨hline', hfirst', hblank⟩)
        · exact (hwithout hwith).elim
        · obtain ⟨rfl, rfl⟩ := hsame hline' hfirst'
          exact (hname hblank.trim_eq).elim

/-! ## Heads -/

/-- A text reads as a head: its first line is the request line, and the other lines that are not empty are
the header lines, in order. -/
def Reads (text : List Char) (head : RequestHead) : Prop :=
  ∃ first others, IsSplit lineEnd text (first :: others) ∧
    IsRequestLine first (head.method, head.target, head.version) ∧
    List.Forall₂ IsHeaderLine (others.filter (· ≠ [])) head.headers

/-- The fault of the first bad line of a text. -/
inductive Faulty (text : List Char) : HeadFault → Prop where
  | requestLine {first : List Char} {others : List (List Char)} {fault : HeadFault}
      (split : IsSplit lineEnd text (first :: others)) (bad : BadRequestLine first fault) :
      Faulty text fault
  | headerLine {first : List Char} {others : List (List Char)} {words : String × String × String}
      {fault : HeadFault} (split : IsSplit lineEnd text (first :: others))
      (request : IsRequestLine first words)
      (bad : FirstBad IsHeaderLine BadHeaderLine (others.filter (· ≠ [])) fault) : Faulty text fault

/-- **What the reader makes of a text.** -/
theorem settles_ofText (text : List Char) :
    Settles (RequestHead.ofText text) (Reads text) (Faulty text) := by
  obtain ⟨first, others, hlines⟩ : ∃ first others, Text.lines text = first :: others :=
    List.exists_cons_of_ne_nil (Text.linesOnto_ne_nil [] text)
  have hsplit := Text.lines_eq_iff.mp hlines
  have hsame : ∀ {first' : List Char} {others' : List (List Char)},
      IsSplit lineEnd text (first' :: others') → first' = first ∧ others' = others := by
    intro first' others' hsplit'
    exact List.cons.inj ((Text.lines_eq_iff.mpr hsplit').symm.trans hlines)
  have hrequest := settles_requestLine first
  have hheaders := Settles.mapM settles_headerLine (others.filter (· ≠ []))
  unfold RequestHead.ofText
  rw [hlines]
  refine ⟨fun head => ⟨fun h => ?_, ?_⟩, fun fault => ⟨fun h => ?_, ?_⟩⟩
  · cases hr : RequestHead.requestLine first with
    | error fault => simp [hr, bind, Except.bind] at h
    | ok words =>
      cases hm : (others.filter (· ≠ [])).mapM RequestHead.headerLine with
      | error fault => simp only [hr, hm, bind, Except.bind, reduceCtorEq] at h
      | ok headers =>
        simp only [hr, hm, bind, Except.bind, Except.ok.injEq] at h
        rw [← h]
        exact ⟨first, others, hsplit, (hrequest.ok_iff words).mp hr, (hheaders.ok_iff headers).mp hm⟩
  · rintro ⟨first', others', hsplit', hwords, hall⟩
    obtain ⟨rfl, rfl⟩ := hsame hsplit'
    simp only [(hrequest.ok_iff _).mpr hwords, (hheaders.ok_iff _).mpr hall, bind, Except.bind]
  · cases hr : RequestHead.requestLine first with
    | error reported =>
      simp only [hr, bind, Except.bind, Except.error.injEq] at h
      exact .requestLine hsplit ((hrequest.error_iff fault).mp (h ▸ hr))
    | ok words =>
      cases hm : (others.filter (· ≠ [])).mapM RequestHead.headerLine with
      | ok headers => simp only [hr, hm, bind, Except.bind, reduceCtorEq] at h
      | error reported =>
        simp only [hr, hm, bind, Except.bind, Except.error.injEq] at h
        exact .headerLine hsplit ((hrequest.ok_iff words).mp hr) ((hheaders.error_iff fault).mp (h ▸ hm))
  · rintro (⟨hsplit', hbad⟩ | ⟨hsplit', hwords, hbad⟩)
    · obtain ⟨rfl, rfl⟩ := hsame hsplit'
      simp only [(hrequest.error_iff _).mpr hbad, bind, Except.bind]
    · obtain ⟨rfl, rfl⟩ := hsame hsplit'
      simp only [(hrequest.ok_iff _).mpr hwords, (hheaders.error_iff _).mpr hbad, bind, Except.bind]

end Upgrade

end ServiceDirectory
