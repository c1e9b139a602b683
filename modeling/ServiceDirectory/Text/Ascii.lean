/-!
# ASCII letters

Names in a request head, and the scheme of an address, do not distinguish the case of the letters A
to Z; other characters stand for themselves alone.
-/

namespace ServiceDirectory.Text

/-- A text with the letters A to Z replaced by a to z. -/
def lowerCase (text : List Char) : List Char := text.map Char.toLower

/-- Two texts differ at most in the case of ASCII letters. -/
def EqIgnoringCase (a b : List Char) : Prop := lowerCase a = lowerCase b

instance (a b : List Char) : Decidable (EqIgnoringCase a b) := by
  unfold EqIgnoringCase; infer_instance

theorem EqIgnoringCase.refl (a : List Char) : EqIgnoringCase a a := rfl

theorem EqIgnoringCase.symm {a b : List Char} (h : EqIgnoringCase a b) : EqIgnoringCase b a :=
  Eq.symm h

theorem EqIgnoringCase.trans {a b c : List Char} (h : EqIgnoringCase a b)
    (h' : EqIgnoringCase b c) : EqIgnoringCase a c :=
  Eq.trans h h'

/-! ## Characters of a text

A condition on the characters of a text is decided by going through the text, not through the type of
characters. -/

instance decidableForallMem (p : Char → Prop) [DecidablePred p] (text : List Char) :
    Decidable (∀ c ∈ text, p c) :=
  List.decidableBAll p text

instance decidableExistsMem (p : Char → Prop) [DecidablePred p] (c? : Option Char) :
    Decidable (∃ c ∈ c?, p c) :=
  Option.decidableExistsMem c?

end ServiceDirectory.Text
