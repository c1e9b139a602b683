import Mathlib.Algebra.Ring.Nat
import Mathlib.Data.List.Induction
import ServiceDirectory.Bytes
import ServiceDirectory.Proofs.Text.Ascii
import ServiceDirectory.Text.Hex

/-!
# Numbers written in digits

Bytes are digits to the base 256 and hexadecimal digits are digits to the base 16.  The last digits of a
number are read back as what is left of it when the digits in front of them are dropped.
-/

namespace ServiceDirectory

namespace BigEndian

theorem toNat_lt (bs : Bytes) : toNat bs < 256 ^ bs.length := by
  rw [← List.reverse_reverse bs]
  induction bs.reverse with
  | nil => simp [toNat]
  | cons b bs ih =>
    rw [List.reverse_cons, toNat_append_singleton, List.length_append, List.length_singleton,
      Nat.pow_succ]
    have := b.toNat_lt
    omega

/-- Reading back what was written gives the number, less what did not fit. -/
theorem toNat_ofNat (k n : Nat) : toNat (ofNat k n) = n % 256 ^ k := by
  induction k generalizing n with
  | zero => simp [toNat, ofNat, Nat.mod_one]
  | succ k ih =>
    rw [ofNat, toNat_append_singleton, ih, Nat.pow_succ, Nat.mul_comm (256 ^ k) 256,
      Nat.mod_mul]
    simp
    omega

end BigEndian

/-- Reading back what was written gives the number, less what did not fit. -/
theorem Hex.ofDigits?_digits (k n : Nat) : ofDigits? (digits k n) = some (n % 16 ^ k) := by
  induction k generalizing n with
  | zero => simp [ofDigits?, digits, Nat.mod_one]
  | succ k ih =>
    have := ih (n / 16)
    simp only [ofDigits?] at this
    simp only [ofDigits?, digits, List.foldlM_append, this, Option.bind_eq_bind, Option.bind_some,
      List.foldlM_cons, List.foldlM_nil, value?_digit (Nat.mod_lt n (by decide : 0 < 16))]
    simp
    rw [Nat.pow_succ, Nat.mul_comm (16 ^ k) 16, Nat.mod_mul]
    omega

namespace Hex

/-- A decimal digit, or a letter from a to f in lower case. -/
def IsLowerDigit (c : Char) : Prop := c.isDigit = true ∨ ('a' ≤ c ∧ c ≤ 'f')

instance (c : Char) : Decidable (IsLowerDigit c) := by
  unfold IsLowerDigit; infer_instance

theorem isLowerDigit_iff {c : Char} : IsLowerDigit c ↔ (lowerValue? c).isSome = true := by
  have hdigit : c.isDigit = true ↔ '0' ≤ c ∧ c ≤ '9' := by simp [Char.isDigit, Char.le_def]
  rw [IsLowerDigit, hdigit, lowerValue?]
  split
  next hrange => simp [hrange]
  next hrange => simp [hrange]

theorem IsLowerDigit.toNat_lt {c : Char} (h : IsLowerDigit c) : c.toNat < 103 := by
  have hlast : c ≤ 'f' := by
    rcases h with h | h
    · have h9 : c ≤ '9' := (Char.isDigit_iff_toNat.mp h).2
      exact Char.le_trans h9 (by decide)
    · exact h.2
  exact Nat.lt_succ_of_le hlast

/-- A lower-case digit is the one that is written for some value. -/
theorem IsLowerDigit.exists_digit {c : Char} (h : IsLowerDigit c) : ∃ value < 16, digit value = c := by
  have hall : ∀ c : Char, c.toNat < 103 → IsLowerDigit c → ∃ value < 16, digit value = c := by
    refine Text.of_forall_lt ?_
    decide
  exact hall c h.toNat_lt h

/-- A text of lower-case digits is what is written for some number. -/
theorem exists_digits {text : List Char} (h : ∀ c ∈ text, IsLowerDigit c) :
    ∃ n < 16 ^ text.length, digits text.length n = text := by
  induction text using List.reverseRecOn with
  | nil => exact ⟨0, Nat.one_pos, rfl⟩
  | append_singleton front c ih =>
    obtain ⟨n, hn, hwritten⟩ := ih fun d hd => h d (List.mem_append_left _ hd)
    obtain ⟨value, hvalue, hdigit⟩ := (h c (by simp)).exists_digit
    have hdiv : (16 * n + value) / 16 = n := by omega
    have hmod : (16 * n + value) % 16 = value := by omega
    rw [List.length_append, List.length_singleton]
    refine ⟨16 * n + value, by rw [Nat.pow_succ]; omega, ?_⟩
    rw [digits, hdiv, hmod, hwritten, hdigit]

end Hex

end ServiceDirectory
