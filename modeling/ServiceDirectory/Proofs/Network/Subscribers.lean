import ServiceDirectory.Proofs.Directory.Subscription
import ServiceDirectory.Proofs.Network.Interleaving

/-!
# Who has subscribed

The channel has as many receivers as there are connections that serve a client (`BusyNetwork.Counted`): a
connection subscribes once, when it begins to serve, and gives the subscription up once, when it ends
(`Connection.Enrolls`).  So a notice is never dropped while some connection could still take it.
-/

namespace ServiceDirectory

open WebSocket (Frame Violation)
open Upgrade (Handshake Outcome)

namespace Connection

/-- The connection has subscribed to notices. -/
def isSubscribed (c : Connection) : Bool :=
  match c.stage with
  | .serving (some _) => true
  | _ => false

/-! ## What a step does to the subscription -/

/-- What a step does to the subscription of a connection and to the directory, as far as it has to do
with the channel. -/
inductive Enrolls (hub : Hub) (c : Connection) (next : Hub × Connection) : Prop where
  | keeps (feed_eq : next.1.directory.feed = hub.directory.feed)
      (same : next.2.isSubscribed = c.isSubscribed)
  | enters (before : c.isSubscribed = false)
      (feed_eq : next.1.directory.feed = hub.directory.subscribe.2.feed)
      (stage_eq : next.2.stage = .serving hub.directory.subscribe.1)
  | leaves (before : c.isSubscribed = true)
      (feed_eq : next.1.directory.feed = hub.directory.unsubscribe.feed)
      (after : next.2.isSubscribed = false)

variable {now : Nat} {hub : Hub} {c : Connection}

theorem isSubscribed_of_stage {c' : Connection} (h : c'.stage = c.stage) :
    c'.isSubscribed = c.isSubscribed := by
  simp only [isSubscribed, h]

/-- What counts of the connection and the hub before the step. -/
theorem Enrolls.of_eq {hub' : Hub} {c' : Connection} {next : Hub × Connection}
    (h : Enrolls hub' c' next) (hd : hub'.directory = hub.directory)
    (hs : c'.isSubscribed = c.isSubscribed) :
    Enrolls hub c next := by
  cases h with
  | keeps feed_eq same => exact .keeps (hd ▸ feed_eq) (same.trans hs)
  | enters before feed_eq stage_eq => exact .enters (hs ▸ before) (hd ▸ feed_eq) (hd ▸ stage_eq)
  | leaves before feed_eq after => exact .leaves (hs ▸ before) (hd ▸ feed_eq) after

/-- Whoever ends gives the subscription up. -/
theorem enrolls_leave (hub : Hub) (c : Connection) {next : Hub × Connection}
    (hd : next.1.directory = (leave hub c).directory) (ha : next.2.isSubscribed = false) :
    Enrolls hub c next := by
  cases hs : c.isSubscribed with
  | true =>
    refine .leaves hs ?_ ha
    unfold isSubscribed at hs
    split at hs
    · next hstage =>
      rw [hd]
      simp only [leave, hstage]
    · cases hs
  | false =>
    refine .keeps ?_ (ha.trans hs.symm)
    rw [hd]
    unfold leave
    split
    · next hstage => simp [isSubscribed, hstage] at hs
    · rfl

theorem enrolls_finish (hub : Hub) (c : Connection) (result : Except Failure Unit) :
    Enrolls hub c (finish hub c result) :=
  enrolls_leave hub c rfl rfl

/-- A write, and what follows it. -/
theorem enrolls_writeThen {bytes : Bytes} {next : Hub → Connection → Hub × Connection}
    (hnext : ∀ c', c'.stage = c.stage → Enrolls hub c' (next hub c')) :
    Enrolls hub c (writeThen hub c bytes next) := by
  apply writeThen_cases
  · intro outlet _ _
    exact (hnext { c with outlet, session := c.session.addSent bytes.length } rfl).of_eq rfl rfl
  · intro outlet front _ _ _ _
    exact (enrolls_finish hub _ _).of_eq rfl rfl

theorem enrolls_message (hub : Hub) (c : Connection) (bytes : Bytes) :
    Enrolls hub c (writeThen hub c bytes stay) :=
  enrolls_writeThen fun _ _ => .keeps rfl rfl

theorem enrolls_closing (hub : Hub) (c : Connection) (bytes : Bytes) :
    Enrolls hub c (writeThen hub c bytes fun hub c => finish hub c (.ok ())) :=
  enrolls_writeThen fun _ _ => enrolls_finish _ _ _

theorem enrolls_fail (hub : Hub) (c : Connection) (cause : Violation) :
    Enrolls hub c (fail hub c cause) :=
  enrolls_leave hub c rfl rfl

theorem enrolls_respond (hub : Hub) (c : Connection) (response : Response) :
    Enrolls hub c (c.respond hub response) :=
  (enrolls_message _ _ _).of_eq rfl (isSubscribed_of_stage rfl)

theorem enrolls_conclude {handshake : Handshake} (hs : c.stage = .handshaking handshake) (now : Nat)
    (hub : Hub) (outcome : Outcome) : Enrolls hub c (conclude now hub c outcome) := by
  apply enrolls_writeThen
  intro c' hs'
  have hnot : c'.isSubscribed = false := by simp only [isSubscribed, hs', hs]
  cases outcome with
  | accepted value => exact .enters hnot rfl rfl
  | refused cause => exact (enrolls_finish _ c' _).of_eq rfl rfl

/-- **A connection subscribes when it begins to serve and gives the subscription up when it ends.** -/
theorem enrolls_of_move {occurrence : Occurrence} {next : Hub × Connection}
    (h : Move now hub c occurrence next) : Enrolls hub c next := by
  have hlast : ∀ {receiver next : Receiver}, c.stage = .serving (some receiver) →
      isSubscribed { c with stage := .serving (some next) } = c.isSubscribed := by
    intro receiver next hs
    simp only [isSubscribed, hs]
  cases h with
  | rest => exact .keeps rfl rfl
  | receive bytes =>
    refine .keeps rfl (isSubscribed_of_stage ?_)
    simp only [receive]
    split
    · rfl
    · split <;> rfl
  | limit room => exact .keeps rfl rfl
  | @conclude _ _ rest hs _ =>
    exact (enrolls_conclude rfl now hub _).of_eq rfl (by simp only [isSubscribed, hs])
  | breakOff _ _ => exact enrolls_leave hub c rfl rfl
  | violation _ _ => exact (enrolls_fail hub _ _).of_eq rfl rfl
  | fault _ _ _ => exact (enrolls_fail hub _ _).of_eq rfl rfl
  | ping _ _ _ => exact (enrolls_message hub _ _).of_eq rfl rfl
  | pong _ _ _ => exact .keeps rfl rfl
  | close _ _ _ => exact (enrolls_closing hub _ _).of_eq rfl rfl
  | lag hs _ _ => exact .keeps rfl (hlast hs)
  | skip hs _ _ _ => exact .keeps rfl (hlast hs)
  | tell hs _ _ _ => exact (enrolls_message hub _ _).of_eq rfl (hlast hs)
  | leaveEarly _ => exact enrolls_finish hub c _
  | leave _ => exact enrolls_finish hub c _
  | loseEarly _ => exact enrolls_finish hub c _
  | lose _ => exact enrolls_finish hub c _
  | timeOut _ => exact enrolls_finish hub c _
  | timeOutAnswering hs _ _ =>
    exact (enrolls_finish hub _ _).of_eq rfl (by simp only [isSubscribed, hs])
  | idle _ => exact (enrolls_closing hub _ _).of_eq rfl rfl

end Connection

/-! ## The receivers of the channel -/

theorem Channel.receivers_send (channel : Channel α) (message : α) :
    (channel.send message).2.receivers = channel.receivers := by
  rw [send]
  split <;> rfl

/-- One takes the place of another in a count. -/
theorem countP_set_add {p : α → Bool} {l : List α} {i : Nat} {a : α} (h : l[i]? = some a) (b : α) :
    (l.set i b).countP p + (if p a then 1 else 0) = l.countP p + (if p b then 1 else 0) := by
  obtain ⟨hlt, rfl⟩ := List.getElem?_eq_some_iff.mp h
  rw [List.countP_set hlt]
  by_cases hp : p l[i] = true
  · have hpos : 0 < l.countP p := List.countP_pos_iff.mpr ⟨_, List.getElem_mem hlt, hp⟩
    simp only [hp, if_true]
    omega
  · simp only [hp, Bool.false_eq_true, if_false]
    omega

namespace BusyNetwork

/-- Notices are on, and the channel has as many receivers as connections have subscribed. -/
def Counted (b : BusyNetwork) : Prop :=
  ∃ channel, b.directory.feed = some channel ∧
    channel.receivers = b.network.connections.countP Connection.isSubscribed

variable {b : BusyNetwork} {conn : Nat} {c : Connection}

/-- A step of one connection keeps the count right. -/
theorem Counted.enrolls (h : b.Counted) (hc : b.network.connections[conn]? = some c)
    {next : Hub × Connection} (hn : Connection.Enrolls b.network.hub c next) {b' : BusyNetwork}
    (hd : b'.directory.feed = next.1.directory.feed)
    (hcs : b'.network.connections = b.network.connections.set conn next.2) : b'.Counted := by
  obtain ⟨channel, hfeed, hcount⟩ := h
  have hset := countP_set_add (p := Connection.isSubscribed) hc next.2
  have hfeed' : b.network.hub.directory.feed = some channel := hfeed
  cases hn with
  | keeps feed_eq same =>
    rw [same] at hset
    refine ⟨channel, (hd.trans feed_eq).trans hfeed, ?_⟩
    rw [hcs, hcount]
    omega
  | enters before feed_eq stage_eq =>
    have hafter : next.2.isSubscribed = true := by
      simp only [Connection.isSubscribed, stage_eq, Directory.subscribe, hfeed']
    refine ⟨channel.subscribe.2, ?_, ?_⟩
    · rw [hd, feed_eq]
      simp only [Directory.subscribe, hfeed']
    · rw [before, hafter] at hset
      show channel.receivers + 1 = _
      rw [hcs, hcount]
      simpa using hset.symm
  | leaves before feed_eq after =>
    refine ⟨channel.unsubscribe, ?_, ?_⟩
    · rw [hd, feed_eq]
      simp only [Directory.unsubscribe, hfeed', Option.map_some]
    · rw [before, after] at hset
      show channel.receivers - 1 = _
      rw [hcs, hcount]
      simp only [if_true, Bool.false_eq_true, if_false] at hset
      omega

/-- **Every step keeps the count right.** -/
theorem Counted.turn (h : b.Counted) {who : Option Nat} {occurrence : Connection.Occurrence}
    {notice : Option (Nat × Notice)} {b' : BusyNetwork} (ht : b.Turn who occurrence notice b') :
    b'.Counted := by
  cases ht with
  | rest => exact h
  | connect session =>
    obtain ⟨channel, hfeed, hcount⟩ := h
    refine ⟨channel, hfeed, ?_⟩
    show _ = (b.network.connections ++ [_]).countP Connection.isSubscribed
    rw [List.countP_append, hcount]
    rfl
  | pass milliseconds => exact h
  | receive bytes hc =>
    exact h.enrolls hc (Connection.enrolls_of_move (.receive bytes)) rfl rfl
  | limit room hc =>
    exact h.enrolls hc (@Connection.enrolls_of_move b.network.now _ _ _ _ (.limit room)) rfl rfl
  | move hc _ hmove => exact h.enrolls hc (Connection.enrolls_of_move hmove) rfl rfl
  | @begin _ c text rest hc _ _ =>
    have hkeeps : Connection.Enrolls b.network.hub c
        (b.network.hub, { c with inbox := rest }) := .keeps rfl rfl
    exact h.enrolls hc hkeeps rfl rfl
  | @publish _ session change _ _ =>
    obtain ⟨channel, hfeed, hcount⟩ := h
    refine ⟨(channel.send (change.notice session)).2, ?_, ?_⟩
    · show (Directory.publish _ _ _).2.feed = _
      simp only [Directory.publish, hfeed]
    · rw [Channel.receivers_send]
      exact hcount
  | respond hc _ => exact h.enrolls hc (Connection.enrolls_respond b.network.hub _ _) rfl rfl

/-! ## What the channel keeps -/

/-- A step of one connection leaves the messages of the channel as they are. -/
theorem logs_of_enrolls {start : Nat} {log : List Notice} {channel after : Channel Notice}
    (h : channel.Logs start log) (hf : b.network.hub.directory.feed = some channel)
    {next : Hub × Connection} (hn : Connection.Enrolls b.network.hub c next)
    (ha : next.1.directory.feed = some after) (hpos : 0 < after.receivers) :
    after.Logs start log := by
  cases hn with
  | keeps feed_eq same =>
    obtain rfl : channel = after := Option.some.inj (hf.symm.trans (feed_eq.symm.trans ha))
    exact h
  | enters before feed_eq stage_eq =>
    simp only [Directory.subscribe, hf] at feed_eq
    obtain rfl : channel.subscribe.2 = after := Option.some.inj (feed_eq.symm.trans ha)
    exact ⟨hpos, h.sent, h.kept⟩
  | leaves before feed_eq after_eq =>
    simp only [Directory.unsubscribe, hf, Option.map_some] at feed_eq
    obtain rfl : channel.unsubscribe = after := Option.some.inj (feed_eq.symm.trans ha)
    exact ⟨hpos, h.sent, h.kept⟩

/-- **As long as some connection has subscribed, the channel keeps every notice that is published.** -/
theorem logs_turn {start : Nat} {log : List Notice} {channel : Channel Notice}
    (h : channel.Logs start log) (hf : b.directory.feed = some channel) {who : Option Nat}
    {occurrence : Connection.Occurrence} {notice : Option (Nat × Notice)} {b' : BusyNetwork}
    (ht : b.Turn who occurrence notice b') (hcounted : b'.Counted)
    (hc : b'.network.connections[conn]? = some c) (hsubscribed : c.isSubscribed = true) :
    ∃ after, b'.directory.feed = some after ∧
      after.Logs start (log ++ notice.toList.map Prod.snd) := by
  obtain ⟨after, ha, hcount⟩ := hcounted
  have hpos : 0 < after.receivers := by
    rw [hcount]
    exact List.countP_pos_iff.mpr ⟨c, List.mem_of_getElem? hc, hsubscribed⟩
  -- nothing is published but by the step that says so
  have hsame : after.Logs start log → after.Logs start (log ++ []) := by
    intro hlogs
    rwa [List.append_nil]
  have hkept : b'.directory.feed = b.directory.feed → after.Logs start log := by
    intro heq
    obtain rfl : channel = after := Option.some.inj (hf.symm.trans (heq.symm.trans ha))
    exact h
  refine ⟨after, ha, ?_⟩
  cases ht with
  | rest => exact hsame (hkept rfl)
  | connect session => exact hsame (hkept rfl)
  | pass milliseconds => exact hsame (hkept rfl)
  | receive bytes _ => exact hsame (hkept rfl)
  | limit room _ => exact hsame (hkept rfl)
  | move _ _ hmove =>
    exact hsame (logs_of_enrolls h hf (Connection.enrolls_of_move hmove) ha hpos)
  | begin _ _ _ => exact hsame (hkept rfl)
  | @publish _ session change _ _ =>
    have hsend : (b.directory.publish session change).2.feed =
        some (channel.send (change.notice session)).2 := by
      simp only [Directory.publish, hf]
    obtain rfl : (channel.send (change.notice session)).2 = after :=
      Option.some.inj (hsend.symm.trans ha)
    exact h.send _
  | respond _ _ =>
    exact hsame (logs_of_enrolls h hf (Connection.enrolls_respond _ _ _) ha hpos)

/-- The count is right in every run with notices. -/
theorem Counted.run (h : b.Counted) (steps : List Step) : (b.run steps).Counted := by
  induction steps generalizing b with
  | nil => exact h
  | cons step steps ih =>
    obtain ⟨who, occurrence, notice, htakes⟩ := takes_step b step
    exact ih (h.turn htakes.turn)

theorem counted_start {config : Config} (h : config.notices = true) (store : Store) :
    (ofNetwork (Network.start config store)).Counted := by
  refine ⟨.withCapacity config.policy.noticeCapacity, ?_, rfl⟩
  show (Network.directoryOf config store).feed = _
  simp only [Network.directoryOf, h, if_true, Directory.withNotices]

end BusyNetwork

end ServiceDirectory
