/-!
# Decimal digits

Digits are read as a number with a cap: a number above it counts as the cap.  So any number of digits
is read in a number of steps that grows with their count alone, and a reader that asks whether a
number is below some bound loses nothing by it (`valueUpTo_eq`).
-/

namespace ServiceDirectory.Text

/-- The number with given decimal digits, or the cap where it is larger. -/
def valueUpTo (cap : Nat) (digits : List Char) : Nat :=
  digits.foldl (fun n c => min cap (10 * n + (c.toNat - '0'.toNat))) 0

theorem valueUpTo_eq (cap : Nat) (digits : List Char) :
    valueUpTo cap digits = min cap (Nat.ofDigitChars 10 digits 0) := by
  have key : ∀ (digits : List Char) (n : Nat),
      digits.foldl (fun n c => min cap (10 * n + (c.toNat - '0'.toNat))) (min cap n) =
        min cap (Nat.ofDigitChars 10 digits n) := by
    intro digits
    induction digits with
    | nil => intro n; rfl
    | cons c digits ih =>
      intro n
      -- a capped number stays at the cap, whatever digit follows
      have step : min cap (10 * min cap n + (c.toNat - '0'.toNat)) =
          min cap (10 * n + (c.toNat - '0'.toNat)) := by omega
      rw [List.foldl_cons, step, ih, Nat.ofDigitChars_cons]
  have := key digits 0
  rwa [Nat.min_eq_right (Nat.zero_le cap)] at this

/-- Below the cap the number is exact. -/
theorem valueUpTo_lt_iff {cap : Nat} {digits : List Char} :
    valueUpTo cap digits < cap ↔ Nat.ofDigitChars 10 digits 0 < cap := by
  rw [valueUpTo_eq]
  omega

end ServiceDirectory.Text
