import ServiceDirectory.Bytes

/-!
# The way to the client

Bytes written to a client go through in order until the client is gone.  From the byte at which the
way breaks nothing goes through any more, and the write that runs into it fails.
-/

namespace ServiceDirectory

/-- What went through to the client, and how much more will. -/
structure Outlet where
  /-- How many more bytes go through before the way breaks; none stands for any number. -/
  room : Option Nat := none
  /-- The pieces that went through, newest first. -/
  pieces : List Bytes := []
  /-- Some write did not go through as a whole. -/
  cut : Bool := false
  deriving DecidableEq, Repr

namespace Outlet

/-- All bytes that went through. -/
def output (outlet : Outlet) : Bytes := outlet.pieces.reverse.flatten

/-- The outlet of a client that takes at most so many more bytes. -/
def limited (outlet : Outlet) (room : Nat) : Outlet :=
  { outlet with room := some (match outlet.room with
      | none => room
      | some less => min less room) }

/-- The outlet of a client that is gone. -/
def broken (outlet : Outlet) : Outlet := { outlet with room := some 0 }

/-- Write some bytes; whether all of them went through comes first. -/
def write (outlet : Outlet) (bytes : Bytes) : Bool × Outlet :=
  match outlet.room with
  | none => (true, { outlet with pieces := bytes :: outlet.pieces })
  | some room =>
    if bytes.length ≤ room then
      (true,
        { outlet with room := some (room - bytes.length), pieces := bytes :: outlet.pieces })
    else (false, { room := some 0, pieces := bytes.take room :: outlet.pieces, cut := true })

/-- A write that goes through adds its bytes. -/
theorem write_of_true {outlet : Outlet} {bytes : Bytes}
    (h : (outlet.write bytes).1 = true) :
    (outlet.write bytes).2.output = outlet.output ++ bytes ∧
      (outlet.write bytes).2.cut = outlet.cut := by
  simp only [write] at h ⊢
  split at h
  · simp [output]
  · split at h
    · next hle => simp [output, hle]
    · simp at h

/-- A write that does not go through adds the front of its bytes. -/
theorem write_of_false {outlet : Outlet} {bytes : Bytes}
    (h : (outlet.write bytes).1 = false) :
    (outlet.write bytes).2.output <+: outlet.output ++ bytes ∧
      (outlet.write bytes).2.cut = true := by
  simp only [write] at h ⊢
  split at h
  · simp at h
  · next room _ =>
    split at h
    · simp at h
    · next hle =>
      rw [if_neg hle]
      refine ⟨?_, rfl⟩
      simp only [output, List.reverse_cons, List.flatten_append, List.flatten_singleton]
      exact (List.prefix_append_right_inj _).mpr (List.take_prefix room bytes)

end Outlet

end ServiceDirectory
