import ServiceDirectory.Proofs.Network.Attendance

/-!
# Connections that are alike

Two runs are to be compared in which different clients take part.  What a connection shares with others
are the table of entries and the channel of notices.  Two channels agree for two receivers where as many
messages are unread and those of them that are kept are the same (`Channel.Agree`); the positions may
differ, and so may the numbers of receivers.  Two connections are alike where they differ at most in the
positions at which they read (`Connection.Alike`).

The same action does the same to connections that are alike (`Connection.Alike.effect`), and they go on to
be alike when receivers come or go, when a request is applied on both sides, and when a notice is sent on
both sides.
-/

namespace ServiceDirectory

open WebSocket (Frame Violation)
open Upgrade (Handshake Outcome)

/-! ## Channels -/

/-- The same is read from two channels, now and later: as many messages are unread, and those of them
that are kept are the same. -/
structure Channel.Agree (a b : Channel α) (r s : Receiver) : Prop where
  capacity_eq : b.capacity = a.capacity
  unread : ∃ n, a.sent = r.next + n ∧ b.sent = s.next + n ∧
    b.kept.take (min n a.capacity) = a.kept.take (min n a.capacity)

namespace Channel

variable {a b : Channel α} {r s : Receiver}

theorem take_of_le {l m : List α} {k n : Nat} (h : k ≤ n) (heq : l.take n = m.take n) :
    l.take k = m.take k := by
  rw [← Nat.min_eq_left h, ← List.take_take, ← List.take_take, heq]

theorem agree_subscribe (h : b.capacity = a.capacity) : a.Agree b a.subscribe.1 b.subscribe.1 :=
  ⟨h, 0, rfl, rfl, by rw [Nat.zero_min, List.take_zero, List.take_zero]⟩

theorem Agree.send (h : a.Agree b r s) (ha : 0 < a.receivers) (hb : 0 < b.receivers) (message : α) :
    (a.send message).2.Agree (b.send message).2 r s := by
  obtain ⟨hcapacity, n, hna, hnb, hkept⟩ := h
  unfold Channel.send
  rw [if_neg (Nat.ne_of_gt ha), if_neg (Nat.ne_of_gt hb)]
  refine ⟨hcapacity, n + 1, ?_, ?_, ?_⟩
  · show a.sent + 1 = r.next + (n + 1)
    omega
  · show b.sent + 1 = s.next + (n + 1)
    omega
  · show ((message :: b.kept).take b.capacity).take (min (n + 1) a.capacity) =
      ((message :: a.kept).take a.capacity).take (min (n + 1) a.capacity)
    rw [hcapacity, List.take_take, List.take_take, Nat.min_assoc, Nat.min_self]
    cases hc : a.capacity with
    | zero => rfl
    | succ capacity =>
      -- the new message is kept, and of the others as many as before or one less
      rw [Nat.succ_min_succ, List.take_succ_cons, List.take_succ_cons,
        take_of_le (by omega : min n capacity ≤ min n a.capacity) hkept]

/-- **The same is read**, and what is read later is the same again. -/
theorem Agree.receive (h : a.Agree b r s) :
    (b.receive s).1 = (a.receive r).1 ∧ a.Agree b (a.receive r).2 (b.receive s).2 := by
  obtain ⟨hcapacity, n, hna, hnb, hkept⟩ := h
  have ha : a.unread r = n := by
    unfold Channel.unread
    omega
  have hb : b.unread s = n := by
    unfold Channel.unread
    omega
  unfold Channel.receive
  rw [ha, hb, hcapacity]
  by_cases hlag : a.capacity < n
  · simp only [if_pos hlag]
    refine ⟨trivial, hcapacity, a.capacity, ?_, ?_, ?_⟩
    · show a.sent = a.sent - a.capacity + a.capacity
      omega
    · show b.sent = b.sent - a.capacity + a.capacity
      omega
    · rw [Nat.min_self]
      rwa [Nat.min_eq_right (Nat.le_of_lt hlag)] at hkept
  · simp only [if_neg hlag]
    cases n with
    | zero => exact ⟨rfl, hcapacity, 0, hna, hnb, hkept⟩
    | succ older =>
      rw [Nat.min_eq_left (by omega)] at hkept
      have hsame : b.kept[older]? = a.kept[older]? := by
        have hget := congrArg (·[older]?) hkept
        simpa only [List.getElem?_take, Nat.lt_succ_self, if_true] using hget
      simp only [hsame]
      cases a.kept[older]? with
      | none =>
        refine ⟨rfl, hcapacity, older + 1, hna, hnb, ?_⟩
        rwa [Nat.min_eq_left (by omega)]
      | some message =>
        refine ⟨rfl, hcapacity, older, ?_, ?_, ?_⟩
        · show a.sent = r.next + 1 + older
          omega
        · show b.sent = s.next + 1 + older
          omega
        · exact take_of_le (by omega) hkept

end Channel

/-! ## Directories -/

/-- Two directories from which requests get the same answers, and with channels that keep equally many
notices. -/
structure Directory.Alike (left right : Directory) : Prop where
  policy_eq : right.policy = left.policy
  store_eq : right.store = left.store
  lenient_eq : right.lenient = left.lenient
  capacity_eq : right.feed.map Channel.capacity = left.feed.map Channel.capacity

namespace Directory

variable {left right : Directory}

theorem Alike.withReceivers (h : left.Alike right) (n m : Nat) :
    (left.withReceivers n).Alike (right.withReceivers m) where
  policy_eq := h.policy_eq
  store_eq := h.store_eq
  lenient_eq := h.lenient_eq
  capacity_eq := by
    unfold Directory.withReceivers
    rw [Option.map_map, Option.map_map]
    exact h.capacity_eq

theorem Alike.attends (h : left.Alike right) {left' right' : Directory} (hl : left.Attends left')
    (hr : right.Attends right') : left'.Alike right' := by
  obtain ⟨n, rfl⟩ := hl
  obtain ⟨m, rfl⟩ := hr
  exact h.withReceivers n m

theorem Alike.withStore (h : left.Alike right) (store : Store) :
    Alike { left with store } { right with store } :=
  ⟨h.policy_eq, rfl, h.lenient_eq, h.capacity_eq⟩

theorem Alike.publish (h : left.Alike right) (session : SessionId) (change : Change) :
    (left.publish session change).2.Alike (right.publish session change).2 := by
  rw [publish_eq left, publish_eq right]
  refine ⟨h.policy_eq, h.store_eq, h.lenient_eq, ?_⟩
  show (right.feed.map _).map _ = (left.feed.map _).map _
  rw [Option.map_map, Option.map_map]
  simpa only [Function.comp_def, Channel.capacity_send] using h.capacity_eq

theorem Alike.applyText (h : left.Alike right) (text : List Char) :
    right.applyText text = left.applyText text := by
  unfold Directory.applyText
  rw [h.policy_eq, h.store_eq, h.lenient_eq]

end Directory

/-! ## Connections -/

/-- Two stages that differ at most in the position at which notices are read. -/
inductive Stage.Alike (left right : Directory) : Stage → Stage → Prop where
  | handshaking (handshake : Handshake) : Alike left right (.handshaking handshake) (.handshaking handshake)
  /-- Notices are off. -/
  | unfed : Alike left right (.serving none) (.serving none)
  | reading {r s : Receiver} {a b : Channel Notice} (left_eq : left.feed = some a)
      (right_eq : right.feed = some b) (agree : a.Agree b r s) :
      Alike left right (.serving (some r)) (.serving (some s))
  | ended (result : Except Failure Unit) : Alike left right (.ended result) (.ended result)

/-- Two connections that differ at most in the position at which notices are read. -/
inductive Connection.Alike (left right : Directory) (c : Connection) : Connection → Prop where
  | mk {stage : Stage} (alike : Stage.Alike left right c.stage stage) :
      Alike left right c { c with stage }

theorem Stage.Alike.withReceivers {left right : Directory} {stage stage' : Stage}
    (h : Stage.Alike left right stage stage') (n m : Nat) :
    Stage.Alike (left.withReceivers n) (right.withReceivers m) stage stage' := by
  cases h with
  | handshaking handshake => exact .handshaking handshake
  | unfed => exact .unfed
  | ended result => exact .ended result
  | reading left_eq right_eq agree =>
    refine .reading (congrArg (Option.map _) left_eq) (congrArg (Option.map _) right_eq) ?_
    exact ⟨agree.capacity_eq, agree.unread⟩

namespace Connection

variable {now : Nat} {hub hub' : Hub} {left right : Directory} {c d : Connection}

/-! ### What they have in common -/

theorem Alike.isSubscribed_eq (h : Connection.Alike left right c d) :
    d.isSubscribed = c.isSubscribed := by
  obtain ⟨config, session, stage, inbox, outlet⟩ := c
  obtain ⟨hstage⟩ := h
  cases hstage <;> rfl

/-- Connections that are alike go on to be so when receivers come or go. -/
theorem Alike.attends (h : Connection.Alike left right c d) {left' right' : Directory}
    (hl : left.Attends left') (hr : right.Attends right') : Connection.Alike left' right' c d := by
  obtain ⟨n, rfl⟩ := hl
  obtain ⟨m, rfl⟩ := hr
  obtain ⟨hstage⟩ := h
  exact ⟨hstage.withReceivers n m⟩

/-! ### Writing and ending -/

theorem alike_start (config : Config) (session : SessionId) :
    Connection.Alike left right (Connection.start config session now hub).2
      (Connection.start config session now hub').2 :=
  ⟨.handshaking _⟩

theorem Alike.finish (h : Connection.Alike left right c d) (result : Except Failure Unit) :
    Connection.Alike left right (finish hub c result).2 (finish hub' d result).2 := by
  obtain ⟨-⟩ := h
  exact ⟨.ended result⟩

theorem Alike.writeThen (h : Connection.Alike left right c d) (bytes : Bytes)
    {next next' : Hub → Connection → Hub × Connection}
    (hnext : ∀ c' d', Connection.Alike left right c' d' →
      Connection.Alike left right (next hub c').2 (next' hub' d').2) :
    Connection.Alike left right (writeThen hub c bytes next).2 (writeThen hub' d bytes next').2 := by
  obtain ⟨hstage⟩ := h
  unfold Connection.writeThen write
  cases c.outlet.write bytes with
  | mk whole outlet =>
    cases whole with
    | true => exact hnext _ _ ⟨hstage⟩
    | false =>
      refine Alike.finish ?_ _
      exact ⟨hstage⟩

theorem Alike.message (h : Connection.Alike left right c d) (bytes : Bytes) :
    Connection.Alike left right (Connection.writeThen hub c bytes stay).2
      (Connection.writeThen hub' d bytes stay).2 :=
  h.writeThen bytes fun _ _ h => h

theorem Alike.closing (h : Connection.Alike left right c d) (bytes : Bytes) :
    Connection.Alike left right
      (Connection.writeThen hub c bytes fun hub c => Connection.finish hub c (.ok ())).2
      (Connection.writeThen hub' d bytes fun hub c => Connection.finish hub c (.ok ())).2 :=
  h.writeThen bytes fun _ _ h => h.finish _

theorem Alike.fail (h : Connection.Alike left right c d) (cause : Violation) :
    Connection.Alike left right (fail hub c cause).2 (fail hub' d cause).2 := by
  obtain ⟨hstage⟩ := h
  refine Alike.finish ?_ _
  exact ⟨hstage⟩

theorem Alike.take (h : Connection.Alike left right c d) (rest : Bytes) :
    Connection.Alike left right { c with inbox := rest } { d with inbox := rest } := by
  obtain ⟨hstage⟩ := h
  exact ⟨hstage⟩

theorem Alike.breakOff (h : Connection.Alike left right c d) (failure : Failure) :
    Connection.Alike left right (breakOff hub c failure).2 (breakOff hub' d failure).2 := by
  obtain ⟨-⟩ := h
  exact ⟨.ended _⟩

theorem Alike.close (h : Connection.Alike left right c d) :
    Connection.Alike left right { c with session := c.session.close }
      { d with session := d.session.close } := by
  obtain ⟨hstage⟩ := h
  exact ⟨hstage⟩

theorem Alike.respond (h : Connection.Alike left right c d) (response : Response) :
    Connection.Alike left right (c.respond hub response).2 (d.respond hub' response).2 := by
  obtain ⟨hstage⟩ := h
  refine Alike.message ?_ _
  exact ⟨hstage⟩

/-- Whoever begins to serve a client reads from the end of the channel. -/
theorem alike_subscribe (h : left.Alike right) (c : Connection) :
    Connection.Alike left right { c with stage := .serving left.subscribe.1 }
      { c with stage := .serving right.subscribe.1 } := by
  have hcapacity := h.capacity_eq
  unfold Directory.subscribe
  cases hl : left.feed with
  | none =>
    cases hr : right.feed with
    | none => exact ⟨.unfed⟩
    | some channel => simp [hl, hr] at hcapacity
  | some channel =>
    cases hr : right.feed with
    | none => simp [hl, hr] at hcapacity
    | some channel' =>
      simp only [hl, hr, Option.map_some, Option.some.injEq] at hcapacity
      exact ⟨.reading hl hr (Channel.agree_subscribe hcapacity)⟩

theorem alike_conclude (h : hub.directory.Alike hub'.directory) {handshake : Handshake}
    (hs : c.stage = .handshaking handshake) (outcome : Outcome) :
    Connection.Alike hub.directory hub'.directory (conclude now hub c outcome).2
      (conclude now hub' c outcome).2 := by
  have hsame : Connection.Alike hub.directory hub'.directory c c :=
    @Alike.mk _ _ c c.stage (hs ▸ .handshaking handshake)
  refine hsame.writeThen _ ?_
  intro c' d' h'
  cases outcome with
  | refused cause => exact h'.finish _
  | accepted value =>
    obtain ⟨hstage⟩ := h'
    exact alike_subscribe h { c' with session := c'.session.becomeOpen now }

/-! ### What a client does -/

theorem Alike.receive (h : Connection.Alike left right c d) (now : Nat) (bytes : Bytes) :
    Connection.Alike left right (c.receive now bytes) (d.receive now bytes) := by
  obtain ⟨config, session, stage, inbox, outlet⟩ := c
  obtain ⟨hstage⟩ := h
  have hkept := hstage
  unfold Connection.receive
  by_cases hempty : bytes = []
  · rw [if_pos hempty, if_pos hempty]
    exact ⟨hkept⟩
  · rw [if_neg hempty, if_neg hempty]
    cases hstage <;> exact ⟨hkept⟩

theorem Alike.narrow (h : Connection.Alike left right c d) (f : Outlet → Outlet) :
    Connection.Alike left right { c with outlet := f c.outlet } { d with outlet := f d.outlet } := by
  obtain ⟨hstage⟩ := h
  exact ⟨hstage⟩

theorem Alike.endInput (h : Connection.Alike left right c d) :
    Connection.Alike left right (c.endInput hub).2 (d.endInput hub').2 := by
  have hends := fun result => @Alike.finish hub hub' left right c d h result
  have hkept := h
  obtain ⟨config, session, stage, inbox, outlet⟩ := c
  obtain ⟨hstage⟩ := h
  cases hstage with
  | handshaking handshake => exact hends _
  | unfed => exact hends _
  | reading _ _ _ => exact hends _
  | ended result => exact hkept

theorem Alike.failInput (h : Connection.Alike left right c d) (cause : String) :
    Connection.Alike left right (c.failInput hub cause).2 (d.failInput hub' cause).2 := by
  have hends := @Alike.finish hub hub' left right c d h (.error (.readFailed cause))
  have hkept := h
  obtain ⟨config, session, stage, inbox, outlet⟩ := c
  obtain ⟨hstage⟩ := h
  cases hstage with
  | handshaking handshake => exact hends
  | unfed => exact hends
  | reading _ _ _ => exact hends
  | ended result => exact hkept

/-! ### Pieces of work -/

theorem Alike.request?_eq (h : Connection.Alike left right c d) : d.request? = c.request? := by
  obtain ⟨config, session, stage, inbox, outlet⟩ := c
  obtain ⟨hstage⟩ := h
  cases hstage <;> rfl

/-- The answer to a frame that is not a request. -/
theorem Alike.answerFrame (h : Connection.Alike left right c d) {frame : Frame}
    (hq : frame.request? = none) :
    Connection.Alike left right (answerFrame hub c frame).2 (answerFrame hub' d frame).2 := by
  cases hf : frame.fault? with
  | some cause =>
    rw [answerFrame_of_fault hf, answerFrame_of_fault hf]
    exact h.fail cause
  | none =>
    obtain ⟨final, opcode, payload⟩ := frame
    cases opcode with
    | ping => exact h.message _
    | pong => exact h
    | close => exact h.close.closing _
    | continuation => cases hf
    | binary => cases hf
    | text =>
      -- a text that is no fault is a request
      cases final <;> simp_all [Frame.fault?, Frame.request?]

/-- Until when a connection is to wait does not turn on the directory. -/
theorem alike_suspend_serving {receiver receiver' : Option Receiver}
    (h : Stage.Alike left right (.serving receiver) (.serving receiver'))
    (hs : c.stage = .serving receiver) :
    Connection.Alike left right (c.suspend hub).2
      (suspend hub' { c with stage := .serving receiver' }).2 := by
  obtain ⟨config, session, stage, inbox, outlet⟩ := c
  obtain rfl : stage = .serving receiver := hs
  simp only [Connection.suspend]
  cases Frame.readMasked config.maxMessageSize inbox with
  | incomplete =>
    by_cases ho : outlastsClock ⟨config, session, .serving receiver, inbox, outlet⟩ = true
    · have ho' : outlastsClock ⟨config, session, .serving receiver', inbox, outlet⟩ = true := ho
      simp only [ho, ho', if_true]
      refine Alike.breakOff ?_ _
      exact ⟨h⟩
    · have ho' : ¬ outlastsClock ⟨config, session, .serving receiver', inbox, outlet⟩ = true := ho
      simp only [ho, ho']
      exact ⟨h⟩
  | _ => exact ⟨h⟩

theorem Alike.suspend (h : Connection.Alike left right c d) :
    Connection.Alike left right (c.suspend hub).2 (d.suspend hub').2 := by
  have hkept := h
  obtain ⟨config, session, stage, inbox, outlet⟩ := c
  obtain ⟨hstage⟩ := h
  have hsame := hstage
  cases hstage with
  | handshaking handshake => exact hkept
  | ended result => exact hkept
  | unfed => exact alike_suspend_serving hsame rfl
  | reading _ _ _ => exact alike_suspend_serving hsame rfl

/-- A piece of work on the frames that have arrived. -/
theorem alike_advance_serving {receiver receiver' : Option Receiver}
    (h : Stage.Alike left right (.serving receiver) (.serving receiver'))
    (hs : c.stage = .serving receiver) (hq : c.request? = none) (now : Nat) :
    Connection.Alike left right ((c.advance now hub).getD (hub, c)).2
      ((advance now hub' { c with stage := .serving receiver' }).getD
        (hub', { c with stage := .serving receiver' })).2 := by
  obtain ⟨config, session, stage, inbox, outlet⟩ := c
  obtain rfl : stage = .serving receiver := hs
  simp only [Connection.request?] at hq
  simp only [Connection.advance]
  cases hr : Frame.readMasked config.maxMessageSize inbox with
  | incomplete => exact ⟨h⟩
  | outOfBounds =>
    refine Alike.breakOff ?_ _
    exact ⟨h⟩
  | violation cause rest =>
    refine Alike.fail ?_ cause
    exact ⟨h⟩
  | frame frame rest =>
    simp only [hr, Option.map_eq_none_iff] at hq
    refine Alike.answerFrame ?_ hq
    exact ⟨h⟩

/-- A piece of work on the bytes that have arrived, where it is not a request. -/
theorem Alike.advance (h : Connection.Alike hub.directory hub'.directory c d)
    (hhub : hub.directory.Alike hub'.directory) (hq : c.request? = none) (now : Nat) :
    Connection.Alike hub.directory hub'.directory ((c.advance now hub).getD (hub, c)).2
      ((d.advance now hub').getD (hub', d)).2 := by
  have hkept := h
  obtain ⟨config, session, stage, inbox, outlet⟩ := c
  obtain ⟨hstage⟩ := h
  cases hstage with
  | ended result => exact hkept
  | unfed => exact alike_advance_serving .unfed rfl hq now
  | reading left_eq right_eq agree =>
    exact alike_advance_serving (.reading left_eq right_eq agree) rfl hq now
  | handshaking handshake =>
    simp only [Connection.advance]
    cases handshake.process inbox with
    | mk outcome? left =>
      obtain ⟨after, rest⟩ := left
      cases outcome? with
      | none => exact hkept
      | some outcome => exact alike_conclude hhub rfl outcome

/-! ### Notices -/

theorem Alike.takeNotice (h : Connection.Alike hub.directory hub'.directory c d) :
    Connection.Alike hub.directory hub'.directory ((c.takeNotice hub).getD (hub, c)).2
      ((d.takeNotice hub').getD (hub', d)).2 := by
  have hkept := h
  obtain ⟨config, session, stage, inbox, outlet⟩ := c
  obtain ⟨hstage⟩ := h
  cases hstage with
  | handshaking handshake => exact hkept
  | unfed => exact hkept
  | ended result => exact hkept
  | @reading r s a b left_eq right_eq agree =>
    obtain ⟨hsame, hnext⟩ := agree.receive
    unfold Connection.takeNotice
    simp only [left_eq, right_eq]
    revert hsame hnext
    cases a.receive r with
    | mk read r' =>
      cases b.receive s with
      | mk received s' =>
        rintro rfl hnext
        cases received with
        | empty => exact hkept
        | lagged missed => exact ⟨.reading left_eq right_eq hnext⟩
        | message notice =>
          by_cases hown : notice.origin = session.id
          · simp only [hown, if_true]
            exact ⟨.reading left_eq right_eq hnext⟩
          · simp only [hown, if_false]
            refine Alike.message ?_ _
            exact ⟨.reading left_eq right_eq hnext⟩

/-! ### Deadlines -/

theorem Alike.deadline?_eq (h : Connection.Alike left right c d) : d.deadline? = c.deadline? := by
  obtain ⟨config, session, stage, inbox, outlet⟩ := c
  obtain ⟨hstage⟩ := h
  cases hstage <;> rfl

theorem Alike.expire (h : Connection.Alike left right c d) :
    Connection.Alike left right (c.expire hub).2 (d.expire hub').2 := by
  have hends := fun result => @Alike.finish hub hub' left right c d h result
  have hcloses := fun bytes => @Alike.closing hub hub' left right _ _ h.close bytes
  have hkept := h
  obtain ⟨config, session, stage, inbox, outlet⟩ := c
  obtain ⟨hstage⟩ := h
  cases hstage with
  | handshaking handshake => exact hends _
  | unfed => exact hcloses _
  | reading _ _ _ => exact hcloses _
  | ended result => exact hkept

theorem Alike.expireAnswering (h : Connection.Alike left right c d) (room : Nat) :
    Connection.Alike left right (c.expireAnswering hub room).2 (d.expireAnswering hub' room).2 := by
  have hkept := h
  obtain ⟨config, session, stage, inbox, outlet⟩ := c
  obtain ⟨hstage⟩ := h
  cases hstage with
  | unfed => exact hkept
  | reading _ _ _ => exact hkept
  | ended result => exact hkept
  | handshaking handshake =>
    unfold Connection.expireAnswering
    simp only
    split
    · exact hkept
    · split
      · exact hkept
      · exact ⟨.ended _⟩

theorem Alike.whenDue (h : Connection.Alike left right c d)
    {f f' : Hub → Connection → Hub × Connection}
    (hf : Connection.Alike left right (f hub c).2 (f' hub' d).2) (now : Nat) :
    Connection.Alike left right (Network.whenDue now f hub c).2 (Network.whenDue now f' hub' d).2 := by
  unfold Network.whenDue
  rw [h.deadline?_eq]
  split
  · split
    · exact hf
    · exact h
  · exact h

/-- **The same action does the same to connections that are alike**, unless it is to answer a request. -/
theorem Alike.effect (h : Connection.Alike hub.directory hub'.directory c d)
    (hhub : hub.directory.Alike hub'.directory) {action : Action} (hq : action.request? c = none)
    (now : Nat) :
    Connection.Alike hub.directory hub'.directory (action.effect now hub c).2
      (action.effect now hub' d).2 := by
  cases action with
  | connect session => exact h
  | pass milliseconds => exact h
  | receive conn bytes => exact h.receive now bytes
  | endInput conn => exact h.endInput
  | failInput conn cause => exact h.failInput cause
  | breakOutlet conn => exact h.narrow Outlet.broken
  | limitOutlet conn room => exact h.narrow (·.limited room)
  | advance conn => exact h.advance hhub hq now
  | suspend conn => exact h.suspend
  | takeNotice conn => exact h.takeNotice
  | expire conn => exact h.whenDue h.expire now
  | expireAnswering conn room =>
    have hends := @Alike.expireAnswering hub hub' _ _ c d h room
    exact @Alike.whenDue hub hub' _ _ c d h (fun hub c => c.expireAnswering hub room)
      (fun hub c => c.expireAnswering hub room) hends now

/-! ### Changes of the directory -/

theorem Alike.withStore (h : Connection.Alike left right c d) (store : Store) :
    Connection.Alike { left with store } { right with store } c d := by
  obtain ⟨config, session, stage, inbox, outlet⟩ := c
  obtain ⟨hstage⟩ := h
  cases hstage with
  | handshaking handshake => exact ⟨.handshaking handshake⟩
  | unfed => exact ⟨.unfed⟩
  | ended result => exact ⟨.ended result⟩
  | reading left_eq right_eq agree => exact ⟨.reading left_eq right_eq agree⟩

/-- A notice reaches both of two connections that are alike, if it is sent at all. -/
theorem Alike.publish (h : Connection.Alike left right c d)
    (hl : c.isSubscribed = true → ∀ channel, left.feed = some channel → 0 < channel.receivers)
    (hr : c.isSubscribed = true → ∀ channel, right.feed = some channel → 0 < channel.receivers)
    (session : SessionId) (change : Change) :
    Connection.Alike (left.publish session change).2 (right.publish session change).2 c d := by
  obtain ⟨config, session', stage, inbox, outlet⟩ := c
  obtain ⟨hstage⟩ := h
  cases hstage with
  | handshaking handshake => exact ⟨.handshaking handshake⟩
  | unfed => exact ⟨.unfed⟩
  | ended result => exact ⟨.ended result⟩
  | @reading r s a b left_eq right_eq agree =>
    have hsent := agree.send (hl rfl a left_eq) (hr rfl b right_eq) (change.notice session)
    refine ⟨.reading ?_ ?_ hsent⟩
    · simp only [Directory.publish, left_eq]
    · simp only [Directory.publish, right_eq]

end Connection

end ServiceDirectory
