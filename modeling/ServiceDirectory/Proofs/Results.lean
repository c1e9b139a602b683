import Mathlib.Data.List.Forall2

/-!
# Results that are described

A computation that can fail is described by what it succeeds with and what it fails with (`Settles`).  The
descriptions of its steps make up that of the whole: one check after the other (`Settles.andThen`), or the
same step for each of a list (`Settles.mapM`).
-/

namespace ServiceDirectory

/-- Where two computations in a row go well, the first does. -/
theorem exists_of_bind_eq_ok {first : Except ε α} {second : α → Except ε β} {b : β}
    (h : first >>= second = .ok b) : ∃ a, first = .ok a ∧ second a = .ok b := by
  cases first with
  | error => cases h
  | ok a => exact ⟨a, rfl, h⟩

/-- A result is described: it succeeds with what `good` says and fails with what `bad` says. -/
structure Settles {ε α : Type} (result : Except ε α) (good : α → Prop) (bad : ε → Prop) : Prop where
  ok_iff : ∀ a, result = .ok a ↔ good a
  error_iff : ∀ e, result = .error e ↔ bad e

section

variable {ε α β : Type} {first : Except ε α} {good : α → Prop}

theorem Settles.done (a : α) : Settles (.ok a : Except ε α) (· = a) (fun _ => False) where
  ok_iff b := by simp [eq_comm]
  error_iff e := by simp

/-- A check that fails for one cause only, unless a condition is met, succeeds where it is. -/
theorem Settles.met_iff {cause : ε} {met : Prop} (h : Settles first good fun e => e = cause ∧ ¬ met) :
    met ↔ ∃ a, first = .ok a := by
  constructor
  · intro hmet
    cases hfirst : first with
    | ok a => exact ⟨a, rfl⟩
    | error fault => exact absurd hmet ((h.error_iff fault).mp hfirst).2
  · rintro ⟨a, hfirst⟩
    by_contra hunmet
    have := (h.error_iff cause).mpr ⟨rfl, hunmet⟩
    simp [hfirst] at this

/-- A check, then what is done with its result: the check fails for one cause only, unless a condition is
met. -/
theorem Settles.andThen {cause : ε} {met : Prop} {second : α → Except ε β} {good' : α → β → Prop}
    {bad' : ε → Prop} (h : Settles first good fun e => e = cause ∧ ¬ met)
    (h' : ∀ a, Settles (second a) (good' a) bad') :
    Settles (first >>= second) (fun b => ∃ a, good a ∧ good' a b)
      (fun e => (e = cause ∧ ¬ met) ∨ (met ∧ bad' e)) := by
  cases hfirst : first with
  | ok a =>
    have hmet : met := h.met_iff.mpr ⟨a, hfirst⟩
    have hgood : ∀ other, good other ↔ a = other := by
      intro other
      rw [← h.ok_iff, hfirst, Except.ok.injEq]
    show Settles (second a) _ _
    constructor
    · intro b
      simpa [hgood] using (h' a).ok_iff b
    · intro e
      simpa [hmet] using (h' a).error_iff e
  | error fault =>
    obtain ⟨rfl, hunmet⟩ := (h.error_iff fault).mp hfirst
    have hgood : ∀ a, ¬ good a := by
      intro a ha
      rw [← h.ok_iff, hfirst] at ha
      cases ha
    show Settles (.error fault) _ _
    constructor
    · intro b
      simp [hgood]
    · intro e
      simp [hunmet, eq_comm]

end

section

variable {ε α β : Type} {f : α → Except ε β} {good : α → β → Prop} {bad : α → ε → Prop}

theorem Settles.mapM_ok_iff (h : ∀ a, Settles (f a) (good a) (bad a)) (l : List α) (bs : List β) :
    l.mapM f = .ok bs ↔ List.Forall₂ good l bs := by
  induction l generalizing bs with
  | nil =>
    cases bs with
    | nil => exact ⟨fun _ => .nil, fun _ => rfl⟩
    | cons b bs => exact ⟨fun hm => (nomatch hm), fun hr => (nomatch hr)⟩
  | cons a l ih =>
    rw [List.mapM_cons]
    constructor
    · intro hm
      cases hf : f a with
      | error e => simp [hf, bind, Except.bind] at hm
      | ok b =>
        cases hl : l.mapM f with
        | error e => simp [hf, hl, bind, Except.bind] at hm
        | ok rest =>
          simp only [hf, hl, bind, Except.bind, pure, Except.pure, Except.ok.injEq] at hm
          rw [← hm]
          exact .cons (((h a).ok_iff b).mp hf) ((ih rest).mp hl)
    · rintro (_ | ⟨hgood, hrest⟩)
      rw [((h a).ok_iff _).mpr hgood, (ih _).mpr hrest]
      rfl

/-- The first of a list that is bad. -/
def FirstBad (good : α → β → Prop) (bad : α → ε → Prop) (l : List α) (e : ε) : Prop :=
  ∃ before a after, l = before ++ a :: after ∧ (∀ x ∈ before, ∃ b, good x b) ∧ bad a e

theorem Settles.mapM_error_iff (h : ∀ a, Settles (f a) (good a) (bad a)) (l : List α) (e : ε) :
    l.mapM f = .error e ↔ FirstBad good bad l e := by
  induction l with
  | nil =>
    constructor
    · exact fun hm => nomatch hm
    · rintro ⟨before, a, after, hl, -⟩
      exact (List.append_ne_nil_of_right_ne_nil before (List.cons_ne_nil a after) hl.symm).elim
  | cons a l ih =>
    rw [List.mapM_cons]
    constructor
    · intro hm
      cases hf : f a with
      | error fault =>
        simp only [hf, bind, Except.bind, Except.error.injEq] at hm
        exact ⟨[], a, l, rfl, fun x hx => (nomatch hx), ((h a).error_iff e).mp (hm ▸ hf)⟩
      | ok b =>
        cases hl : l.mapM f with
        | ok rest => simp [hf, hl, bind, Except.bind, pure, Except.pure] at hm
        | error fault =>
          simp only [hf, hl, bind, Except.bind, Except.error.injEq] at hm
          obtain ⟨before, x, after, rfl, hbefore, hbad⟩ := ih.mp (hm ▸ hl)
          refine ⟨a :: before, x, after, rfl, fun y hy => ?_, hbad⟩
          rcases List.mem_cons.mp hy with rfl | hy
          · exact ⟨b, ((h y).ok_iff b).mp hf⟩
          · exact hbefore y hy
    · rintro ⟨before, x, after, heq, hbefore, hbad⟩
      cases before with
      | nil =>
        obtain ⟨rfl, rfl⟩ := List.cons.inj heq
        rw [((h a).error_iff e).mpr hbad]
        rfl
      | cons y before =>
        obtain ⟨rfl, rfl⟩ := List.cons.inj heq
        obtain ⟨b, hb⟩ := hbefore a List.mem_cons_self
        rw [((h a).ok_iff b).mpr hb, ih.mpr ⟨before, x, after, rfl,
          fun z hz => hbefore z (List.mem_cons_of_mem _ hz), hbad⟩]
        rfl

/-- **A list is read** when each of its members is, and otherwise the first bad one is reported. -/
theorem Settles.mapM (h : ∀ a, Settles (f a) (good a) (bad a)) (l : List α) :
    Settles (l.mapM f) (List.Forall₂ good l) (FirstBad good bad l) :=
  ⟨mapM_ok_iff h l, mapM_error_iff h l⟩

end

end ServiceDirectory
