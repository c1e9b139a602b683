/-!
# Hexadecimal digits

Digits are written in lower case and read in either case.
-/

namespace ServiceDirectory.Hex

/-- The value of a digit in lower case. -/
def lowerValue? (c : Char) : Option Nat :=
  if '0' ≤ c ∧ c ≤ '9' then some (c.toNat - '0'.toNat)
  else if 'a' ≤ c ∧ c ≤ 'f' then some (c.toNat - 'a'.toNat + 10)
  else none

/-- The value of a digit. -/
def value? (c : Char) : Option Nat :=
  if 'A' ≤ c ∧ c ≤ 'F' then some (c.toNat - 'A'.toNat + 10) else lowerValue? c

/-- The digit with a value below 16. -/
def digit (value : Nat) : Char :=
  if value < 10 then Char.ofNat ('0'.toNat + value) else Char.ofNat ('a'.toNat + (value - 10))

/-- The number with given digits, most significant first. -/
def ofDigits? (digits : List Char) : Option Nat :=
  digits.foldlM (fun n c => (value? c).map (16 * n + ·)) 0

/-- The last `k` digits of a number, most significant first. -/
def digits : (k : Nat) → Nat → List Char
  | 0, _ => []
  | k + 1, n => digits k (n / 16) ++ [digit (n % 16)]

@[simp] theorem length_digits (k n : Nat) : (digits k n).length = k := by
  induction k generalizing n with
  | zero => rfl
  | succ k ih => simp [digits, ih]

theorem lowerValue?_digit {value : Nat} (h : value < 16) : lowerValue? (digit value) = some value := by
  have : ∀ v : Fin 16, lowerValue? (digit v) = some v.val := by decide
  exact this ⟨value, h⟩

theorem value?_digit {value : Nat} (h : value < 16) : value? (digit value) = some value := by
  have : ∀ v : Fin 16, value? (digit v) = some v.val := by decide
  exact this ⟨value, h⟩

end ServiceDirectory.Hex
