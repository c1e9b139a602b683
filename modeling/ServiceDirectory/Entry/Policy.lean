/-!
# What a directory may be set to

Some topics are kept back from entries, and the channel that carries notices of changes has a
capacity.
-/

namespace ServiceDirectory

/-- The settings of a directory. -/
structure Policy where
  /-- Topics that no entry may use. -/
  reservedTopics : List String := ["registry"]
  /-- How many notices are kept for a slow receiver. -/
  noticeCapacity : Nat := 256
  deriving DecidableEq, Repr

namespace Policy

/-- The policy with one more topic reserved. -/
def reserve (policy : Policy) (topic : String) : Policy :=
  { policy with reservedTopics := policy.reservedTopics ++ [topic] }

/-- The policy with another capacity, which is at least one. -/
def withNoticeCapacity (policy : Policy) (capacity : Nat) : Policy :=
  { policy with noticeCapacity := max capacity 1 }

/-- No entry may use this topic. -/
def IsReserved (policy : Policy) (topic : String) : Prop := topic ∈ policy.reservedTopics

instance (policy : Policy) (topic : String) : Decidable (policy.IsReserved topic) := by
  unfold IsReserved; infer_instance

end Policy

end ServiceDirectory
