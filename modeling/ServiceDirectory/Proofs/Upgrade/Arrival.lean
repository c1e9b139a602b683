import Mathlib.Algebra.Ring.Nat
import Mathlib.Tactic.Common
import ServiceDirectory.Upgrade.Handshake

/-!
# Request heads while bytes arrive

A head is judged on the bytes received so far, at the latest when they are more than the limit.  Later
bytes do not change what it was judged to be (`outcome?_append`): where the limit was exceeded before
the head was complete, the complete head exceeds it as well.
-/

namespace ServiceDirectory.Upgrade

/-! ## Where a head ends -/

/-- More bytes hold a terminator at their front only where the first of them hold it already, once
these are enough for it. -/
theorem isPrefixOf_terminator_append {received : Bytes} (more : Bytes)
    (h : terminator.length ≤ received.length) :
    terminator.isPrefixOf (received ++ more) = terminator.isPrefixOf received := by
  rw [Bool.eq_iff_iff, List.isPrefixOf_iff_prefix, List.isPrefixOf_iff_prefix]
  constructor
  · intro hp
    exact List.prefix_of_prefix_length_le hp (List.prefix_append received more) h
  · intro hp
    exact hp.trans (List.prefix_append received more)

theorem length_of_headLengthFrom {before length : Nat} {received : Bytes}
    (h : headLengthFrom before received = some length) :
    before + terminator.length ≤ length ∧ length ≤ before + received.length := by
  induction received generalizing before with
  | nil => simp [headLengthFrom] at h
  | cons b received ih =>
    rw [headLengthFrom] at h
    split at h
    · next hp =>
      have := (List.isPrefixOf_iff_prefix.mp hp).length_le
      obtain rfl := Option.some.inj h
      omega
    · have := ih h
      rw [List.length_cons]
      omega

theorem headLengthFrom_append_of_some {before length : Nat} {received : Bytes} (more : Bytes)
    (h : headLengthFrom before received = some length) :
    headLengthFrom before (received ++ more) = some length := by
  induction received generalizing before with
  | nil => simp [headLengthFrom] at h
  | cons b received ih =>
    have hlen := length_of_headLengthFrom h
    -- a whole terminator is left from here on, so later bytes cannot make one at this place
    rw [List.cons_append, headLengthFrom, ← List.cons_append,
      isPrefixOf_terminator_append more (by omega)]
    rw [headLengthFrom] at h
    split at h
    · next hp => rw [if_pos hp]; exact h
    · next hp => rw [if_neg hp]; exact ih h

/-- A head that is not complete yet takes more bytes than are there. -/
theorem lt_of_headLengthFrom_append {before length : Nat} {received more : Bytes}
    (hn : headLengthFrom before received = none)
    (h : headLengthFrom before (received ++ more) = some length) :
    before + received.length < length := by
  induction received generalizing before with
  | nil =>
    have := (length_of_headLengthFrom h).1
    simp only [terminator, List.length_cons, List.length_nil] at this ⊢
    omega
  | cons b received ih =>
    rw [headLengthFrom] at hn
    split at hn
    · simp at hn
    · next hp =>
      rw [List.cons_append, headLengthFrom, ← List.cons_append] at h
      split at h
      · next hp' =>
        -- the terminator stands here, but its last bytes are among those that came later
        have hshort : (b :: received).length < terminator.length := by
          by_contra hlong
          rw [isPrefixOf_terminator_append more (by omega)] at hp'
          exact hp hp'
        obtain rfl := Option.some.inj h
        omega
      · have := ih hn h
        rw [List.length_cons]
        omega

/-! ## What a head is judged to be -/

/-- A head that is not judged yet is within the limit. -/
theorem Handshake.length_le_of_outcome? {limit : Nat} {received : Bytes}
    (h : outcome? limit received = none) : received.length ≤ limit := by
  unfold outcome? at h
  split at h
  · split at h
    · cases h
    next hwithin => exact Nat.le_of_not_lt hwithin
  · split at h <;> cases h

/-- **Later bytes do not change an outcome.** -/
theorem Handshake.outcome?_append {limit : Nat} {received rest : Bytes} {outcome : Outcome}
    (more : Bytes) (h : outcome? limit received = some (outcome, rest)) :
    outcome? limit (received ++ more) = some (outcome, rest ++ more) := by
  simp only [outcome?, headLength?] at h ⊢
  split at h
  · next hn =>
    split at h
    · next hover =>
      obtain ⟨rfl, rfl⟩ := Prod.mk.inj (Option.some.inj h)
      -- over the limit without a whole head: a head completed later is longer than these bytes
      cases hl : headLengthFrom 0 (received ++ more) with
      | none =>
        simp only
        rw [if_pos (by rw [List.length_append]; omega)]
      | some length =>
        have := lt_of_headLengthFrom_append hn hl
        simp only
        rw [if_pos (by omega)]
    · simp at h
  · next length hl =>
    rw [headLengthFrom_append_of_some more hl]
    have hlen := (length_of_headLengthFrom hl).2
    simp only
    split at h
    · next hover =>
      obtain ⟨rfl, rfl⟩ := Prod.mk.inj (Option.some.inj h)
      rw [if_pos hover]
    · next hover =>
      obtain ⟨rfl, rfl⟩ := Prod.mk.inj (Option.some.inj h)
      rw [if_neg hover, List.take_append_of_le_length (by omega),
        List.drop_append_of_le_length (by omega)]

end ServiceDirectory.Upgrade
