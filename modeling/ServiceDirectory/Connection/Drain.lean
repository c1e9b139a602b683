import ServiceDirectory.Connection

/-!
# Working until nothing is left to do

`Connection.drain` works on the bytes received until the connection has to wait for more, and
`Connection.takeNotices` passes on every notice that is there.  The first comes to an end because
each piece of work takes bytes out of the inbox or brings the connection a stage further
(`weight_advance`).
-/

namespace ServiceDirectory.Connection

/-- How many stages a connection has before it. -/
def stagesLeft (c : Connection) : Nat :=
  match c.stage with
  | .handshaking _ => 2
  | .serving _ => 1
  | .ended _ => 0

/-- A bound on the pieces of work that are left to do. -/
def weight (c : Connection) : Nat := c.inbox.length + c.stagesLeft

/-! ## What the steps do to the bytes received -/

theorem inbox_write (c : Connection) (bytes : Bytes) : (c.write bytes).2.inbox = c.inbox := rfl

theorem stage_write (c : Connection) (bytes : Bytes) : (c.write bytes).2.stage = c.stage := rfl

theorem weight_finish (hub : Hub) (c : Connection) (result : Except Failure Unit) :
    (finish hub c result).2.weight = c.inbox.length := by
  simp [finish, weight, stagesLeft]

theorem weight_fail (hub : Hub) (c : Connection) (cause : WebSocket.Violation) :
    (fail hub c cause).2.weight = c.inbox.length := by
  simp [fail, weight_finish, inbox_write]

theorem weight_writeThen {hub : Hub} {c : Connection} {bytes : Bytes}
    {next : Hub → Connection → Hub × Connection} {n : Nat} (hc : c.inbox.length ≤ n)
    (hn : ∀ hub c', c'.inbox = c.inbox → c'.stage = c.stage → (next hub c').2.weight ≤ n) :
    (writeThen hub c bytes next).2.weight ≤ n := by
  simp only [writeThen]
  split
  · next c' h =>
    have : (c.write bytes).2 = c' := by rw [h]
    exact hn _ _ (this ▸ inbox_write c bytes) (this ▸ stage_write c bytes)
  · next c' h =>
    have : (c.write bytes).2 = c' := by rw [h]
    rw [weight_finish, ← this, inbox_write]
    exact hc

theorem weight_stay {hub : Hub} {c c' : Connection} (hi : c'.inbox = c.inbox)
    (hs : c'.stage = c.stage) : (stay hub c').2.weight ≤ c.weight := by
  simp [stay, weight, stagesLeft, hi, hs]

theorem weight_conclude (now : Nat) (hub : Hub) (c : Connection) (outcome : Upgrade.Outcome) :
    (conclude now hub c outcome).2.weight ≤ c.inbox.length + 1 := by
  apply weight_writeThen (by omega)
  intro hub c' hi _
  cases outcome with
  | accepted value => simp [weight, stagesLeft, hi]
  | refused cause => simp only [weight_finish, hi]; omega

theorem weight_answerFrame (hub : Hub) (c : Connection) (frame : WebSocket.Frame) :
    (answerFrame hub c frame).2.weight ≤ c.weight := by
  have hc : c.inbox.length ≤ c.weight := Nat.le_add_right _ _
  have hs : ∀ hub c', c'.inbox = c.inbox → c'.stage = c.stage →
      (stay hub c').2.weight ≤ c.weight := fun _ _ hi hs => weight_stay hi hs
  simp only [answerFrame]
  split
  · split
    · split
      · rwa [weight_fail]
      · exact weight_writeThen hc hs
    · rwa [weight_fail]
  · rwa [weight_fail]
  · rwa [weight_fail]
  · exact weight_writeThen hc hs
  · exact Nat.le_refl _
  · refine weight_writeThen hc fun hub c' hi _ => ?_
    rw [weight_finish, hi]
    exact hc

/-- A piece of work leaves less to do. -/
theorem weight_advance {now : Nat} {hub : Hub} {c : Connection} {next : Hub × Connection}
    (h : c.advance now hub = some next) : next.2.weight < c.weight := by
  simp only [advance] at h
  split at h
  · simp at h
  · next hs =>
    split at h
    · simp at h
    · next hp =>
      obtain rfl := Option.some.inj h
      refine Nat.lt_of_le_of_lt (weight_conclude _ _ _ _) ?_
      have := Upgrade.Handshake.length_rest_of_outcome? (Upgrade.Handshake.outcome?_of_process hp)
      simp only [weight, stagesLeft, hs]
      omega
  · next hs =>
    have hw : c.weight = c.inbox.length + 1 := by simp [weight, stagesLeft, hs]
    split at h
    · simp at h
    · obtain rfl := Option.some.inj h
      simp only [breakOff, weight, stagesLeft, hs]
      omega
    · next hv =>
      obtain rfl := Option.some.inj h
      have := WebSocket.Frame.length_rest_of_violation hv
      simp only [weight_fail, hw]
      omega
    · next hf =>
      obtain rfl := Option.some.inj h
      refine Nat.lt_of_le_of_lt (weight_answerFrame _ _ _) ?_
      have := WebSocket.Frame.length_rest_of_readMasked hf
      simp only [weight, stagesLeft, hs]
      omega

/-! ## Working until the connection waits -/

/-- Work on the bytes received until the connection waits for more. -/
def drain (now : Nat) (hub : Hub) (c : Connection) : Hub × Connection :=
  match _h : c.advance now hub with
  | none => (hub, c)
  | some next => drain now next.1 next.2
termination_by c.weight
decreasing_by exact weight_advance _h

/-- How many notices are there for a connection. -/
def backlog (hub : Hub) (c : Connection) : Nat :=
  match c.stage, hub.directory.feed with
  | .serving (some receiver), some channel => channel.unread receiver
  | _, _ => 0

/-- Take at most `n` notices. -/
def takeNoticesUpTo : (n : Nat) → Hub → Connection → Hub × Connection
  | 0, hub, c => (hub, c)
  | n + 1, hub, c =>
    match takeNotice hub c with
    | none => (hub, c)
    | some next => takeNoticesUpTo n next.1 next.2

/-- Take every notice that is there. -/
def takeNotices (hub : Hub) (c : Connection) : Hub × Connection :=
  takeNoticesUpTo (backlog hub c) hub c

end ServiceDirectory.Connection
