import Mathlib.Algebra.Ring.Nat
import Mathlib.Tactic.Common
import ServiceDirectory.Base64

/-!
# Base64 is read as it is written

The reader takes the written form of some bytes and nothing else (`Base64.decode?_eq_some_iff`).  Bytes and
groups of four characters are compared through the values of the digits, each of which has one digit.
-/

namespace ServiceDirectory.Base64

variable {a b c : UInt8} {x y z w : Char} {bytes : Bytes} {text : List Char}

/-! ## Digits -/

/-- The digits and their values. -/
theorem value?_eq_some_iff {value : Nat} : value? x = some value ↔ value < 64 ∧ x = digit value := by
  constructor
  · intro h
    obtain ⟨hlt, heq, -⟩ := List.findIdx?_eq_some_iff_getElem.mp h
    refine ⟨hlt, ?_⟩
    rw [digit, List.getD_eq_getElem?_getD, List.getElem?_eq_getElem hlt, Option.getD_some]
    exact (eq_of_beq heq).symm
  · rintro ⟨hlt, rfl⟩
    have hall : ∀ v : Fin 64, value? (digit v) = some v.val := by decide +kernel
    exact hall ⟨value, hlt⟩

theorem value?_digit {value : Nat} (h : value < 64) : value? (digit value) = some value :=
  value?_eq_some_iff.mpr ⟨h, rfl⟩

theorem digit_ne_pad {value : Nat} (h : value < 64) : digit value ≠ '=' := by
  have hall : ∀ v : Fin 64, digit v ≠ '=' := by decide +kernel
  exact hall ⟨value, h⟩

/-! ## Groups of digits

A group is read by the values of its digits; the bytes they make up have those digits. -/

theorem toNat_ofNat_of_lt {n : Nat} (h : n < 256) : (UInt8.ofNat n).toNat = n :=
  (UInt8.toNat_ofNat' (n := n)).trans (Nat.mod_eq_of_lt h)

theorem ofNat_eq_of_eq {n : Nat} (h : n = a.toNat) : UInt8.ofNat n = a := by
  rw [h, UInt8.ofNat_toNat]

theorem three?_eq_some_iff :
    decode?.three? x y z w = some bytes ↔ ∃ a b c : UInt8, bytes = [a, b, c] ∧
      x = digit (a.toNat / 4) ∧ y = digit (a.toNat % 4 * 16 + b.toNat / 16) ∧
      z = digit (b.toNat % 16 * 4 + c.toNat / 64) ∧ w = digit (c.toNat % 64) := by
  simp only [decode?.three?, Option.bind_eq_bind, Option.bind_eq_some_iff, value?_eq_some_iff,
    Option.some.injEq]
  constructor
  · rintro ⟨p, ⟨hp, rfl⟩, q, ⟨hq, rfl⟩, r, ⟨hr, rfl⟩, s, ⟨hs, rfl⟩, rfl⟩
    refine ⟨_, _, _, rfl, ?_⟩
    rw [toNat_ofNat_of_lt (by omega), toNat_ofNat_of_lt (by omega), toNat_ofNat_of_lt (by omega)]
    refine ⟨congrArg digit ?_, congrArg digit ?_, congrArg digit ?_, congrArg digit ?_⟩ <;> omega
  · rintro ⟨a, b, c, rfl, rfl, rfl, rfl, rfl⟩
    have ha := a.toNat_lt
    have hb := b.toNat_lt
    have hc := c.toNat_lt
    refine ⟨_, ⟨?_, rfl⟩, _, ⟨?_, rfl⟩, _, ⟨?_, rfl⟩, _, ⟨?_, rfl⟩, ?_⟩
    any_goals omega
    rw [ofNat_eq_of_eq (a := a) (by omega), ofNat_eq_of_eq (a := b) (by omega),
      ofNat_eq_of_eq (a := c) (by omega)]

theorem lastTwo?_eq_some_iff :
    lastTwo? x y z = some bytes ↔ ∃ a b : UInt8, bytes = [a, b] ∧
      x = digit (a.toNat / 4) ∧ y = digit (a.toNat % 4 * 16 + b.toNat / 16) ∧
      z = digit (b.toNat % 16 * 4) := by
  simp only [lastTwo?, Option.bind_eq_bind, Option.bind_eq_some_iff, value?_eq_some_iff,
    Option.ite_none_right_eq_some, Option.some.injEq]
  constructor
  · rintro ⟨p, ⟨hp, rfl⟩, q, ⟨hq, rfl⟩, r, ⟨hr, rfl⟩, hzero, rfl⟩
    refine ⟨_, _, rfl, ?_⟩
    rw [toNat_ofNat_of_lt (by omega), toNat_ofNat_of_lt (by omega)]
    refine ⟨congrArg digit ?_, congrArg digit ?_, congrArg digit ?_⟩ <;> omega
  · rintro ⟨a, b, rfl, rfl, rfl, rfl⟩
    have ha := a.toNat_lt
    have hb := b.toNat_lt
    refine ⟨_, ⟨?_, rfl⟩, _, ⟨?_, rfl⟩, _, ⟨?_, rfl⟩, ?_, ?_⟩
    any_goals omega
    rw [ofNat_eq_of_eq (a := a) (by omega), ofNat_eq_of_eq (a := b) (by omega)]

theorem lastOne?_eq_some_iff :
    lastOne? x y = some bytes ↔ ∃ a : UInt8, bytes = [a] ∧
      x = digit (a.toNat / 4) ∧ y = digit (a.toNat % 4 * 16) := by
  simp only [lastOne?, Option.bind_eq_bind, Option.bind_eq_some_iff, value?_eq_some_iff,
    Option.ite_none_right_eq_some, Option.some.injEq]
  constructor
  · rintro ⟨p, ⟨hp, rfl⟩, q, ⟨hq, rfl⟩, hzero, rfl⟩
    refine ⟨_, rfl, ?_⟩
    rw [toNat_ofNat_of_lt (by omega)]
    refine ⟨congrArg digit ?_, congrArg digit ?_⟩ <;> omega
  · rintro ⟨a, rfl, rfl, rfl⟩
    have ha := a.toNat_lt
    refine ⟨_, ⟨?_, rfl⟩, _, ⟨?_, rfl⟩, ?_, ?_⟩
    any_goals omega
    rw [ofNat_eq_of_eq (a := a) (by omega)]

/-! ## Texts -/

theorem decode?_encode (bytes : Bytes) : decode? (encode bytes) = some bytes := by
  fun_induction encode bytes with
  | case1 => rfl
  | case2 a => exact lastOne?_eq_some_iff.mpr ⟨a, rfl, rfl, rfl⟩
  | case3 a b =>
    have hb := b.toNat_lt
    have hpad := digit_ne_pad (show b.toNat % 16 * 4 < 64 by omega)
    simp only [decode?, if_true, if_neg hpad]
    exact lastTwo?_eq_some_iff.mpr ⟨a, b, rfl, rfl, rfl, rfl⟩
  | case4 a b c rest ih =>
    have hfront := three?_eq_some_iff.mpr ⟨a, b, c, rfl, rfl, rfl, rfl, rfl⟩
    have hpad := digit_ne_pad (show c.toNat % 64 < 64 by omega)
    cases hrest : encode rest with
    | nil =>
      -- without a rest the group is the last one
      rw [hrest] at ih
      obtain rfl := Option.some.inj ih
      simp only [decode?, if_neg hpad]
      exact hfront
    | cons d text =>
      rw [hrest] at ih
      simp only [decode?, hfront, ih, Option.bind_eq_bind, Option.bind_some]
      rfl

theorem eq_encode_of_decode? (h : decode? text = some bytes) : text = encode bytes := by
  fun_induction decode? text generalizing bytes with
  | case1 => exact Option.some.inj h ▸ rfl
  | case2 x y =>
    obtain ⟨a, rfl, rfl, rfl⟩ := lastOne?_eq_some_iff.mp h
    rfl
  | case3 x y z hz =>
    obtain ⟨a, b, rfl, rfl, rfl, rfl⟩ := lastTwo?_eq_some_iff.mp h
    rfl
  | case4 x y z w hw =>
    obtain ⟨a, b, c, rfl, rfl, rfl, rfl, rfl⟩ := three?_eq_some_iff.mp h
    rfl
  | case5 x y z w rest _ ih =>
    simp only [Option.bind_eq_bind, Option.bind_eq_some_iff, Option.some.injEq] at h
    obtain ⟨front, hfront, back, hback, rfl⟩ := h
    obtain ⟨a, b, c, rfl, rfl, rfl, rfl, rfl⟩ := three?_eq_some_iff.mp hfront
    rw [ih hback]
    rfl
  | case6 text _ _ _ => cases h

/-- **What is read is what is written**: every text is the written form of at most one string of bytes,
and no other text is read. -/
theorem decode?_eq_some_iff : decode? text = some bytes ↔ text = encode bytes :=
  ⟨eq_encode_of_decode?, fun h => h ▸ decode?_encode bytes⟩

end ServiceDirectory.Base64
