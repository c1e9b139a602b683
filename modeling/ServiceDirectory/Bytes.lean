/-!
# Byte strings and words in network order

A byte string is a list of bytes.  Two things are read from one again and again: a piece of known
length at the front (`split?`) and a number written most significant byte first (`BigEndian`).
Writing a number in `k` bytes and reading it back gives the number itself whenever it fits, and
every `k` bytes are the written form of the number they read as.
-/

namespace ServiceDirectory

/-- A string of bytes, first byte first. -/
abbrev Bytes := List UInt8

namespace Bytes

/-- At least `n` bytes are there.  No more than `n` of them are looked at, and nothing is copied. -/
def hasAtLeast : (n : Nat) → Bytes → Bool
  | 0, _ => true
  | _ + 1, [] => false
  | n + 1, _ :: bs => hasAtLeast n bs

@[simp] theorem hasAtLeast_iff {n : Nat} {bs : Bytes} : hasAtLeast n bs = true ↔ n ≤ bs.length := by
  induction n generalizing bs with
  | zero => simp [hasAtLeast]
  | succ n ih => cases bs <;> simp [hasAtLeast, ih]

/-- The first `n` bytes and what follows them, or nothing when there are fewer than `n`. -/
def split? (n : Nat) (bs : Bytes) : Option (Bytes × Bytes) :=
  if hasAtLeast n bs then some (bs.take n, bs.drop n) else none

theorem split?_eq_some_iff {n : Nat} {bs front rest : Bytes} :
    split? n bs = some (front, rest) ↔ bs = front ++ rest ∧ front.length = n := by
  simp only [split?, hasAtLeast_iff]
  split
  · next h =>
    simp only [Option.some.injEq, Prod.mk.injEq]
    constructor
    · rintro ⟨rfl, rfl⟩
      exact ⟨(List.take_append_drop n bs).symm, by simp only [List.length_take]; omega⟩
    · rintro ⟨rfl, rfl⟩
      simp
  · next h =>
    simp only [reduceCtorEq, false_iff, not_and]
    rintro rfl rfl
    simp at h

theorem split?_eq_none_iff {n : Nat} {bs : Bytes} : split? n bs = none ↔ bs.length < n := by
  simp [split?]

end Bytes

namespace BigEndian

/-- The number whose digits to the base 256 are the given bytes, most significant first. -/
def toNat (bs : Bytes) : Nat :=
  bs.foldl (fun n b => 256 * n + b.toNat) 0

/-- The last `k` digits of a number to the base 256, most significant first. -/
def ofNat : (k : Nat) → Nat → Bytes
  | 0, _ => []
  | k + 1, n => ofNat k (n / 256) ++ [UInt8.ofNat n]

@[simp] theorem length_ofNat (k n : Nat) : (ofNat k n).length = k := by
  induction k generalizing n with
  | zero => rfl
  | succ k ih => simp [ofNat, ih]

theorem toNat_append_singleton (bs : Bytes) (b : UInt8) :
    toNat (bs ++ [b]) = 256 * toNat bs + b.toNat := by
  simp [toNat]

/-- Every string of bytes is the written form of the number it reads as. -/
theorem ofNat_toNat (bs : Bytes) : ofNat bs.length (toNat bs) = bs := by
  rw [← List.reverse_reverse bs]
  induction bs.reverse with
  | nil => rfl
  | cons b bs ih =>
    rw [List.reverse_cons]
    generalize bs.reverse = bs at ih
    have h : (256 * toNat bs + b.toNat) / 256 = toNat bs := by
      have := b.toNat_lt
      omega
    rw [toNat_append_singleton, List.length_append, List.length_singleton, ofNat, h, ih]
    simp [UInt8.ofNat_add, UInt8.ofNat_mul]

end BigEndian

end ServiceDirectory
