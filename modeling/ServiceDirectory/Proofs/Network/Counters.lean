import Mathlib.Algebra.BigOperators.Group.List.Basic
import ServiceDirectory.Proofs.Network.Requests

/-!
# The counters of a server

The counters are kept step by step, by the connections as they go.  What they come to is a sum: every
connection that was made has a share in them (`Connection.share`), which can be told from the connection as
it is, and a step changes the counters by as much as it changes the share of its connection
(`Connection.balances_of_move`).  So at every moment the counters are the sum of the shares
(`BusyNetwork.Balanced.turn`), whatever the connections do and however each of them ends (`counted_run`).

A connection that breaks off does not take its share in the connections at present back, so that it is
counted among them for good (`counted_after_end`).
-/

namespace ServiceDirectory

open WebSocket (Frame Violation)
open Upgrade (Handshake Outcome SwitchingHead)

/-! ## Counters added up -/

attribute [ext] Metrics

namespace Metrics

/-- What two of them count together. -/
instance : Add Metrics where
  add m other :=
    { total := m.total + other.total
      active := m.active + other.active
      refused := m.refused + other.refused
      rejected := m.rejected + other.rejected
      messages := m.messages + other.messages }

instance : Zero Metrics where
  zero := {}

variable (m other : Metrics)

@[simp] theorem total_add : (m + other).total = m.total + other.total := rfl

@[simp] theorem active_add : (m + other).active = m.active + other.active := rfl

@[simp] theorem refused_add : (m + other).refused = m.refused + other.refused := rfl

@[simp] theorem rejected_add : (m + other).rejected = m.rejected + other.rejected := rfl

@[simp] theorem messages_add : (m + other).messages = m.messages + other.messages := rfl

theorem zero_def : (0 : Metrics) = {} := rfl

instance : AddCancelCommMonoid Metrics where
  add_assoc m other more := by ext <;> simp [UInt64.add_assoc]
  add_comm m other := by ext <;> simp [UInt64.add_comm]
  zero_add m := by ext <;> simp [zero_def]
  add_zero m := by ext <;> simp [zero_def]
  nsmul := nsmulRec
  add_left_cancel m other more h := by
    change m + other = m + more at h
    rw [Metrics.ext_iff] at h ⊢
    simpa using h

end Metrics

/-- One takes the place of another in a sum. -/
theorem sum_set_add [AddCommMonoid α] {l : List α} {i : Nat} {a : α} (h : l[i]? = some a) (b : α) :
    (l.set i b).sum + a = l.sum + b := by
  induction l generalizing i with
  | nil => exact nomatch h
  | cons first l ih =>
    cases i with
    | zero =>
      obtain rfl := Option.some.inj h
      rw [List.set_cons_zero, List.sum_cons, List.sum_cons, add_right_comm, add_comm b, add_right_comm]
    | succ i =>
      rw [List.set_cons_succ, List.sum_cons, List.sum_cons, add_assoc, add_assoc, ih h]

/-! ## The share of a connection -/

/-- The upgrade request was refused. -/
def Stage.isRefusal : Stage → Bool
  | .ended (.error (.handshake _)) => true
  | _ => false

namespace Connection

/-- The connection is counted among those at present: it has not ended, or it has broken off. -/
def isCounted (c : Connection) : Bool := !c.hasEnded || c.brokeOff

/-- How many messages the session counts. -/
def messages (c : Connection) : UInt64 := c.session.traffic.messages

/-- What the counters hold of a connection. -/
def share (c : Connection) : Metrics :=
  { total := 1
    active := if c.isCounted then 1 else 0
    rejected := if c.stage.isRefusal then 1 else 0
    messages := c.messages }

/-- The counters change by as much as the share of the connection does. -/
def Balances (hub : Hub) (c : Connection) (next : Hub × Connection) : Prop :=
  next.1.metrics + c.share = hub.metrics + next.2.share

variable {now : Nat} {hub : Hub} {c c' : Connection} {next : Hub × Connection}

theorem share_of_going (h : c.hasEnded = false) :
    c.share = { total := 1, active := 1, messages := c.messages } := by
  have hcounted : c.isCounted = true := by
    rw [isCounted, h]
    rfl
  have hplain : c.stage.isRefusal = false := by
    unfold hasEnded at h
    unfold Stage.isRefusal
    cases hs : c.stage with
    | ended result => simp [hs] at h
    | _ => rfl
  simp only [share, hcounted, hplain, if_true, Bool.false_eq_true, if_false]

theorem hasEnded_of_stage (hs : c'.stage = c.stage) : c'.hasEnded = c.hasEnded := by
  simp only [hasEnded, hs]

theorem isCounted_of_stage (hs : c'.stage = c.stage) : c'.isCounted = c.isCounted := by
  simp only [isCounted, hasEnded_of_stage hs, brokeOff_of_stage hs]

theorem share_of_stage (hs : c'.stage = c.stage) (hm : c'.messages = c.messages) :
    c'.share = c.share := by
  simp only [share, isCounted_of_stage hs, hs, hm]

/-- Those that are counted are those that have not ended and those that have broken off. -/
theorem countP_isCounted (connections : List Connection) :
    connections.countP isCounted =
      connections.countP (fun c => !c.hasEnded) + connections.countP brokeOff := by
  induction connections with
  | nil => rfl
  | cons c connections ih =>
    have hended : c.brokeOff = true → c.hasEnded = true := by
      unfold brokeOff hasEnded
      cases c.stage <;> simp
    rw [List.countP_cons, List.countP_cons, List.countP_cons, ih, isCounted]
    revert hended
    cases c.hasEnded <;> cases c.brokeOff <;> simp <;> omega

/-- What counts of the connection before the step. -/
theorem Balances.of_share (h : Balances hub c' next) (hs : c'.share = c.share) :
    Balances hub c next := by
  unfold Balances at h ⊢
  rw [← hs]
  exact h

/-- Nothing is counted where a connection goes on. -/
theorem balances_going (h : c.hasEnded = false) (h' : c'.hasEnded = false)
    (hm : c'.messages = c.messages) : Balances hub c (hub, c') := by
  unfold Balances
  rw [share_of_going h, share_of_going h', hm]

/-- A connection that ends is no longer counted among those at present. -/
theorem balances_finish (h : c.hasEnded = false) {result : Except Failure Unit}
    (hends : (finish hub c result).2.brokeOff = false)
    (hplain : (Stage.ended result).isRefusal = false) : Balances hub c (finish hub c result) := by
  have hmetrics : (finish hub c result).1.metrics = hub.metrics.connectionClosed := by
    simp only [finish, leave]
    split <;> rfl
  have hshare : (finish hub c result).2.share = { total := 1, messages := c.messages } := by
    have hcounted : (finish hub c result).2.isCounted = false := hends
    show Metrics.mk _ _ _ _ _ = _
    rw [hcounted, show (finish hub c result).2.stage = .ended result from rfl, hplain]
    rfl
  unfold Balances
  rw [hmetrics, hshare, share_of_going h]
  ext <;> simp [Metrics.connectionClosed]

/-- A connection that breaks off is counted on. -/
theorem balances_breakOff (h : c.hasEnded = false) {failure : Failure} (hb : c.Breaks failure)
    (hub : Hub) : Balances hub c (breakOff hub c failure) := by
  have hmetrics : (breakOff hub c failure).1.metrics = hub.metrics := by
    simp only [breakOff, leave]
    split <;> rfl
  have hcounted : (breakOff hub c failure).2.isCounted = true := hb.isOutOfBounds
  have hplain : (breakOff hub c failure).2.stage.isRefusal = false := by
    cases hb <;> rfl
  have hshare : (breakOff hub c failure).2.share = { total := 1, active := 1, messages := c.messages } := by
    show Metrics.mk _ _ _ _ _ = _
    rw [hcounted, hplain]
    rfl
  unfold Balances
  rw [hmetrics, hshare, share_of_going h]

/-- A write, and what follows it. -/
theorem balances_writeThen (h : c.hasEnded = false) {bytes : Bytes}
    {rest : Hub → Connection → Hub × Connection}
    (hrest : ∀ c', c'.stage = c.stage → c'.messages = c.messages → Balances hub c' (rest hub c')) :
    Balances hub c (writeThen hub c bytes rest) := by
  apply writeThen_cases
  · intro outlet _ _
    exact (hrest { c with outlet, session := c.session.addSent bytes.length } rfl rfl).of_share
      (share_of_stage rfl rfl)
  · intro outlet front _ _ _ _
    exact (balances_finish (c := { c with outlet }) h rfl rfl).of_share (share_of_stage rfl rfl)

theorem balances_message (h : c.hasEnded = false) (hub : Hub) (bytes : Bytes) :
    Balances hub c (writeThen hub c bytes stay) :=
  balances_writeThen h fun _ _ _ => rfl

theorem balances_closing (h : c.hasEnded = false) (hub : Hub) (bytes : Bytes) :
    Balances hub c (writeThen hub c bytes fun hub c => finish hub c (.ok ())) :=
  balances_writeThen h fun _ hs _ => balances_finish ((hasEnded_of_stage hs).trans h) rfl rfl

theorem traffic_close (session : Session) : session.close.traffic = session.traffic := by
  unfold Session.close
  split <;> rfl

theorem traffic_becomeOpen (session : Session) (now : Nat) :
    (session.becomeOpen now).traffic = session.traffic := by
  unfold Session.becomeOpen
  split <;> rfl

/-- What is written and how the session stands is not counted. -/
theorem share_of_session {session : Session} (h : session.traffic.messages = c.messages)
    (inbox : Bytes) (outlet : Outlet) : share { c with session, inbox, outlet } = c.share :=
  share_of_stage rfl h

theorem messages_close (c : Connection) : c.session.close.traffic.messages = c.messages :=
  congrArg Traffic.messages (traffic_close c.session)

theorem messages_write (c : Connection) (bytes : Bytes) : (c.write bytes).2.messages = c.messages := by
  show (if (c.outlet.write bytes).1 = true then c.session.addSent bytes.length
    else c.session).traffic.messages = _
  generalize (c.outlet.write bytes).1 = whole
  cases whole <;> rfl

theorem messages_receive (now : Nat) (c : Connection) (bytes : Bytes) :
    (c.receive now bytes).messages = c.messages := by
  unfold receive
  split
  · rfl
  · split <;> rfl

theorem balances_fail (h : c.hasEnded = false) (hub : Hub) (cause : Violation) :
    Balances hub c (fail hub c cause) := by
  let written := (write { c with session := c.session.close }
    (Frame.writeClose (some cause.closeCode))).2
  have hmessages : written.messages = c.messages := (messages_write _ _).trans c.messages_close
  have hgoing : written.hasEnded = false := h
  have hfinish : Balances hub written (finish hub written (.error (.frame cause))) :=
    balances_finish hgoing rfl rfl
  exact hfinish.of_share (share_of_stage rfl hmessages)

/-- The answer to the upgrade request. -/
theorem balances_conclude {handshake : Handshake} (hs : c.stage = .handshaking handshake) (now : Nat)
    (hub : Hub) (outcome : Outcome) : Balances hub c (conclude now hub c outcome) := by
  have hgoing : c.hasEnded = false := by simp only [hasEnded, hs]
  refine balances_writeThen hgoing fun c' hs' hm => ?_
  have hgoing' : c'.hasEnded = false := (hasEnded_of_stage hs').trans hgoing
  cases outcome with
  | accepted value =>
    have hopen : messages { c' with session := c'.session.becomeOpen now } = c'.messages :=
      congrArg Traffic.messages (traffic_becomeOpen _ now)
    unfold Balances
    rw [share_of_going hgoing', share_of_going (c := Prod.snd _) rfl]
    show hub.metrics + _ = hub.metrics + { total := 1, active := 1, messages := messages _ }
    rw [← hopen]
    rfl
  | refused cause =>
    -- it is counted as refused, and no longer among those at present
    have hmetrics : (finish { hub with metrics := hub.metrics.handshakeRejected } c'
        (.error (.handshake cause))).1.metrics = hub.metrics.handshakeRejected.connectionClosed := by
      simp only [finish, leave, hs', hs]
    unfold Balances
    show (finish _ c' _).1.metrics + _ = hub.metrics + { total := 1, rejected := 1, messages := _ }
    rw [hmetrics, share_of_going hgoing']
    ext <;> simp [Metrics.connectionClosed, Metrics.handshakeRejected, messages, finish,
      Session.finish]

/-- **Every move counts what it does.** -/
theorem balances_of_move {occurrence : Occurrence} (h : Move now hub c occurrence next) :
    Balances hub c next := by
  have hgoing : ∀ {receiver : Option Receiver}, c.stage = .serving receiver → c.hasEnded = false :=
    fun hs => by simp only [hasEnded, hs]
  have hwaiting : ∀ {handshake : Handshake}, c.stage = .handshaking handshake → c.hasEnded = false :=
    fun hs => by simp only [hasEnded, hs]
  cases h with
  | rest => rfl
  | receive bytes =>
    exact Balances.of_share rfl
      (share_of_stage (stage_receive now c bytes) (messages_receive now c bytes))
  | limit room => rfl
  | @conclude handshake outcome rest hs _ =>
    have hanswer := balances_conclude (c := { c with
      inbox := rest, stage := .handshaking (handshake.finish outcome) }) rfl now hub outcome
    refine hanswer.of_share ?_
    rw [share_of_going (hwaiting hs)]
    rfl
  | breakOff hs hb => exact balances_breakOff (hgoing hs) hb hub
  | @violation _ cause rest hs _ =>
    exact (balances_fail (c := { c with inbox := rest }) (hgoing hs) hub cause).of_share rfl
  | @fault _ _ rest cause hs _ _ =>
    exact (balances_fail (c := { c with inbox := rest }) (hgoing hs) hub cause).of_share rfl
  | @ping _ frame rest hs _ _ =>
    exact (balances_message (c := { c with inbox := rest }) (hgoing hs) hub _).of_share rfl
  | pong hs _ _ => rfl
  | @close _ frame rest hs _ _ =>
    have hclosing := balances_closing (c := { c with inbox := rest, session := c.session.close })
      (hgoing hs) hub (Frame.writeClose frame.closeCode?)
    exact hclosing.of_share (share_of_session c.messages_close _ _)
  | lag hs _ _ => exact balances_going (hgoing hs) rfl rfl
  | skip hs _ _ _ => exact balances_going (hgoing hs) rfl rfl
  | @tell _ next _ notice hs _ _ _ =>
    have htold := balances_message (c := { c with stage := .serving (some next) }) rfl hub
      (Frame.writeText (Utf8.encode notice.payload.toList))
    refine htold.of_share ?_
    rw [share_of_going (hgoing hs)]
    rfl
  | leaveEarly hs => exact balances_finish (hwaiting hs) rfl rfl
  | leave hs => exact balances_finish (hgoing hs) rfl rfl
  | loseEarly hs => exact balances_finish (hwaiting hs) rfl rfl
  | lose hs => exact balances_finish (hgoing hs) rfl rfl
  | timeOut hs => exact balances_finish (hwaiting hs) rfl rfl
  | @timeOutAnswering handshake outcome rest outlet _ hs _ _ =>
    let answering : Connection :=
      { c with inbox := rest, stage := .handshaking (handshake.finish outcome), outlet }
    have hends : Balances hub answering (finish hub answering (.error .timedOut)) :=
      balances_finish rfl rfl rfl
    refine hends.of_share ?_
    rw [share_of_going (hwaiting hs)]
    rfl
  | idle hs =>
    have hclosing := balances_closing (c := { c with session := c.session.close }) (hgoing hs) hub
      (Frame.writeClose (some .goingAway))
    exact hclosing.of_share (share_of_session c.messages_close _ _)

/-- The response to a request is counted as a message, whether it goes through or not. -/
theorem balances_respond (h : c.hasEnded = false) (hub : Hub) (response : Response) :
    Balances hub c (c.respond hub response) := by
  let counted : Connection := { c with session := c.session.addMessage }
  have hmessage : Balances { hub with metrics := hub.metrics.messageHandled } counted
      (c.respond hub response) :=
    balances_message (c := counted) h _ _
  have hmetrics : hub.metrics.messageHandled = hub.metrics + { messages := 1 } := by
    ext <;> simp [Metrics.messageHandled]
  have hcounted : counted.isCounted = c.isCounted := isCounted_of_stage rfl
  have hone : counted.messages = c.messages + 1 := rfl
  have hshare : counted.share = c.share + { messages := 1 } := by
    rw [share, hcounted, hone, show counted.stage = c.stage from rfl]
    ext <;> simp [share]
  unfold Balances at hmessage ⊢
  change _ = hub.metrics.messageHandled + _ at hmessage
  refine add_right_cancel (b := { messages := 1 }) ?_
  rw [add_assoc, ← hshare, hmessage, hmetrics, add_right_comm]

/-! ## What the session counts -/

theorem messages_writeThen {bytes : Bytes} {rest : Hub → Connection → Hub × Connection}
    (hrest : ∀ hub c', c'.messages = c.messages → (rest hub c').2.messages = c.messages) (hub : Hub) :
    (writeThen hub c bytes rest).2.messages = c.messages :=
  writeThen_cases (P := fun next => next.2.messages = c.messages)
    (fun _ _ _ => hrest _ _ rfl) (fun _ _ _ _ _ _ => rfl)

theorem messages_message (hub : Hub) (c : Connection) (bytes : Bytes) :
    (writeThen hub c bytes stay).2.messages = c.messages :=
  messages_writeThen (fun _ _ h => h) hub

theorem messages_closing (hub : Hub) (c : Connection) (bytes : Bytes) :
    (writeThen hub c bytes fun hub c => finish hub c (.ok ())).2.messages = c.messages :=
  messages_writeThen (fun _ _ h => h) hub

theorem messages_fail (hub : Hub) (c : Connection) (cause : Violation) :
    (fail hub c cause).2.messages = c.messages :=
  (messages_write _ _).trans c.messages_close

/-- No move counts a message. -/
theorem messages_of_move {occurrence : Occurrence} (h : Move now hub c occurrence next) :
    next.2.messages = c.messages := by
  cases h with
  | receive bytes => exact messages_receive now c bytes
  | @conclude _ outcome _ _ _ =>
    refine messages_writeThen (fun hub c' hm => ?_) hub
    cases outcome with
    | accepted value => exact (congrArg Traffic.messages (traffic_becomeOpen _ now)).trans hm
    | refused cause => exact hm
  | violation _ _ => exact messages_fail hub _ _
  | fault _ _ _ => exact messages_fail hub _ _
  | ping _ _ _ => exact messages_message hub _ _
  | close _ _ _ => exact (messages_closing hub _ _).trans c.messages_close
  | tell _ _ _ _ => exact messages_message hub _ _
  | idle _ => exact (messages_closing hub _ _).trans c.messages_close
  | _ => rfl

theorem messages_respond (hub : Hub) (c : Connection) (response : Response) :
    (c.respond hub response).2.messages = c.messages + 1 :=
  messages_message _ { c with session := c.session.addMessage } _

end Connection

/-! ## The sum of the shares -/

namespace BusyNetwork

variable {b b' : BusyNetwork} {conn : Nat} {c c' : Connection} {who : Option Nat}
  {occurrence : Connection.Occurrence} {notice : Option (Nat × Notice)}

/-- A connection in the middle of an answer serves its client. -/
def AnswersServing (b : BusyNetwork) : Prop :=
  ∀ conn answering, b.answering conn = some answering →
    ∃ c, b.network.connections[conn]? = some c ∧ ∃ receiver, c.stage = .serving receiver

theorem AnswersServing.turn (h : b.AnswersServing) (ht : b.Turn who occurrence notice b') :
    b'.AnswersServing := by
  intro conn answering ha
  by_cases hwho : who = some conn
  · subst hwho
    have hset : ∀ {c d : Connection}, b.network.connections[conn]? = some c →
        (b.network.connections.set conn d)[conn]? = some d :=
      fun hc => List.getElem?_set_self (List.getElem?_eq_some_iff.mp hc).1
    -- what its client does leaves the stage as it is, and it makes no move
    have hkept : ∀ {c d : Connection}, b.network.connections[conn]? = some c → d.stage = c.stage →
        b.answering conn = some answering →
        ∃ c, (b.network.connections.set conn d)[conn]? = some c ∧
          ∃ receiver, c.stage = .serving receiver := by
      intro c d hc hd ha
      obtain ⟨c', hc', receiver, hs⟩ := h conn answering ha
      obtain rfl := Option.some.inj (hc.symm.trans hc')
      exact ⟨d, hset hc, receiver, hd.trans hs⟩
    cases ht with
    | receive bytes hc => exact hkept hc (Connection.stage_receive _ _ _) ha
    | limit room hc => exact hkept hc rfl ha
    | move _ hfree _ => exact nomatch hfree.symm.trans ha
    | begin hc _ hq =>
      obtain ⟨receiver, frame, hs, -⟩ := Connection.advance_of_request hq
      exact ⟨_, hset hc, receiver, hs⟩
    | publish hp => exact h conn _ hp
    | respond _ _ =>
      have hnone : none = some answering := (Function.update_self conn _ b.answering).symm.trans ha
      exact nomatch hnone
  · rw [answering_turn ht hwho] at ha
    obtain ⟨c, hc, hserving⟩ := h conn answering ha
    exact ⟨c, (other_turn hc ht hwho).1, hserving⟩

/-- The counters are the sum of what all connections have in them, and what else there is. -/
def Balanced (b : BusyNetwork) (rest : Metrics) : Prop :=
  b.network.hub.metrics = (b.network.connections.map Connection.share).sum + rest

variable {rest : Metrics}

/-- A step of one connection. -/
theorem Balanced.one (h : b.Balanced rest) (hc : b.network.connections[conn]? = some c)
    {next : Hub × Connection} (hn : Connection.Balances b.network.hub c next)
    (hm : b'.network.hub.metrics = next.1.metrics)
    (hcs : b'.network.connections = b.network.connections.set conn next.2) : b'.Balanced rest := by
  have hshare : (b.network.connections.map Connection.share)[conn]? = some c.share := by
    rw [List.getElem?_map, hc]
    rfl
  have hset := sum_set_add hshare next.2.share
  unfold Balanced at h ⊢
  unfold Connection.Balances at hn
  rw [hm, hcs, List.map_set]
  rw [h] at hn
  refine add_right_cancel (b := c.share) ?_
  rw [hn, add_right_comm, ← hset, add_right_comm]

/-- **Every step keeps the counters right.** -/
theorem Balanced.turn (h : b.Balanced rest) (hserving : b.AnswersServing)
    (ht : b.Turn who occurrence notice b') : b'.Balanced rest := by
  cases ht with
  | rest => exact h
  | connect session =>
    have hmetrics : b.network.hub.metrics.connectionOpened =
        b.network.hub.metrics + { total := 1, active := 1 } := by
      ext <;> simp [Metrics.connectionOpened]
    unfold Balanced at h ⊢
    show b.network.hub.metrics.connectionOpened =
      ((b.network.connections ++ [_]).map Connection.share).sum + rest
    rw [hmetrics, h, List.map_append, List.sum_append, List.map_singleton, List.sum_singleton,
      add_right_comm]
    rfl
  | pass milliseconds => exact h
  | receive bytes hc => exact h.one hc (Connection.balances_of_move (.receive bytes)) rfl rfl
  | limit room hc =>
    exact h.one hc (@Connection.balances_of_move b.network.now _ _ _ _ (.limit room)) rfl rfl
  | move hc _ hmove => exact h.one hc (Connection.balances_of_move hmove) rfl rfl
  | @begin _ c text inbox hc _ _ =>
    have hkeeps : Connection.Balances b.network.hub c (b.network.hub, { c with inbox }) := rfl
    exact h.one hc hkeeps rfl rfl
  | publish _ => exact h
  | @respond _ _ response c hc ha =>
    obtain ⟨c', hc', receiver, hs⟩ := hserving _ _ ha
    obtain rfl := Option.some.inj (hc.symm.trans hc')
    have hgoing : c.hasEnded = false := by simp only [Connection.hasEnded, hs]
    exact h.one hc (Connection.balances_respond hgoing _ response) rfl rfl

/-- What the sum of the shares is, as numbers. -/
theorem sum_share (connections : List Connection) :
    (connections.map Connection.share).sum =
      { total := UInt64.ofNat connections.length
        active := UInt64.ofNat (connections.countP Connection.isCounted)
        rejected := UInt64.ofNat (connections.countP fun c => c.stage.isRefusal)
        messages := UInt64.ofNat (connections.map fun c => c.messages.toNat).sum } := by
  induction connections with
  | nil => rfl
  | cons c connections ih =>
    rw [List.map_cons, List.sum_cons, ih]
    refine Metrics.ext ?_ ?_ rfl ?_ ?_
    · show 1 + UInt64.ofNat connections.length = UInt64.ofNat (connections.length + 1)
      rw [UInt64.ofNat_add, UInt64.add_comm]
      rfl
    · show (if c.isCounted then 1 else 0) + UInt64.ofNat _ = UInt64.ofNat (List.countP _ (c :: _))
      rw [List.countP_cons, UInt64.ofNat_add, UInt64.add_comm]
      cases c.isCounted <;> rfl
    · show (if c.stage.isRefusal then 1 else 0) + UInt64.ofNat _ = UInt64.ofNat (List.countP _ (c :: _))
      rw [List.countP_cons, UInt64.ofNat_add, UInt64.add_comm]
      cases c.stage.isRefusal <;> rfl
    · show c.messages + UInt64.ofNat _ =
        UInt64.ofNat ((c :: connections).map fun c => c.messages.toNat).sum
      rw [List.map_cons, List.sum_cons, UInt64.ofNat_add, UInt64.ofNat_toNat]

end BusyNetwork

/-! ## Whoever is refused is told so -/

theorem Upgrade.SwitchingHead.status {head : Bytes} (h : SwitchingHead head) : head[9]? = some 49 := by
  obtain ⟨value, -, -, rfl⟩ := h.accept
  rw [List.append_assoc, Utf8.encode_append, encode_switchingLines, List.append_assoc,
    List.getElem?_append_left (by decide +kernel)]
  decide +kernel

theorem Transmission.refusal_status : Transmission.refusal[9]? = some 52 := by
  decide +kernel

/-- A head that switches protocols and the refusal differ in the tenth byte. -/
theorem Upgrade.SwitchingHead.ne_of_front {head bytes : Bytes} (h : SwitchingHead head)
    (hbytes : head <+: bytes) : bytes ≠ Transmission.refusal := by
  rintro rfl
  obtain ⟨rest, hrest⟩ := hbytes
  have hstatus := h.status
  have hlt := (List.getElem?_eq_some_iff.mp hstatus).1
  have hrefusal := Transmission.refusal_status
  rw [← hrest, List.getElem?_append_left hlt, hstatus] at hrefusal
  exact absurd hrefusal (by decide)

theorem Upgrade.SwitchingHead.not_front {head : Bytes} (h : SwitchingHead head) :
    ¬ Transmission.refusal <+: head := by
  rintro ⟨rest, hrest⟩
  have hstatus := h.status
  have hrefusal := Transmission.refusal_status
  have hlt := (List.getElem?_eq_some_iff.mp hrefusal).1
  rw [← hrest, List.getElem?_append_left hlt, hrefusal] at hstatus
  exact absurd hstatus (by decide)

namespace Connection

variable {now : Nat} {hub : Hub} {c c' : Connection} {next : Hub × Connection}

/-- A connection is as its stage says, and whoever was sent the whole refusal and nothing else was
refused. -/
structure IsSettled (c : Connection) : Prop where
  placed : c.Placed
  refused : c.outlet.output = Transmission.refusal → c.stage.isRefusal = true

theorem IsUpgraded.output_ne (h : c.IsUpgraded) (hc : c.outlet.output <+: c'.outlet.output) :
    c'.outlet.output ≠ Transmission.refusal := by
  obtain ⟨head, hhead, hhere⟩ := h.head
  exact hhead.ne_of_front (hhere.trans hc)

/-- A front of an answer to the upgrade request that is not all of it is not the refusal. -/
theorem ne_refusal_of_short {limit : Nat} {received rest front : Bytes} {outcome : Outcome}
    (ho : Handshake.outcome? limit received = some (outcome, rest)) (hfront : front <+: outcome.response)
    (hlength : front.length < outcome.response.length) : front ≠ Transmission.refusal := by
  rintro rfl
  cases outcome with
  | accepted value => exact (Upgrade.switchingHead_of_outcome? ho).not_front hfront
  | refused cause => exact absurd hlength (Nat.lt_irrefl _)

theorem refused_conclude {limit : Nat} {outcome : Outcome} {rest : Bytes} {stage : Stage}
    (h : c.IsWaiting) (ho : Handshake.outcome? limit c.inbox = some (outcome, rest)) (now : Nat)
    (hub : Hub)
    (houtput : (conclude now hub { c with inbox := rest, stage } outcome).2.outlet.output =
      Transmission.refusal) :
    (conclude now hub { c with inbox := rest, stage } outcome).2.stage.isRefusal = true := by
  revert houtput
  apply writeThen_cases (P := fun next =>
    next.2.outlet.output = Transmission.refusal → next.2.stage.isRefusal = true)
  · intro outlet houtlet _ houtput
    have houtlet' : outlet.output = c.outlet.output ++ outcome.response := houtlet
    rw [h.output_eq, List.nil_append] at houtlet'
    cases outcome with
    | accepted value =>
      have hhead := Upgrade.switchingHead_of_outcome? ho
      exact absurd (houtlet'.symm.trans houtput) (hhead.ne_of_front (List.prefix_refl _))
    | refused cause => rfl
  · intro outlet front hfront hlength houtlet _ houtput
    have houtlet' : outlet.output = c.outlet.output ++ front := houtlet
    rw [h.output_eq, List.nil_append] at houtlet'
    exact absurd (houtlet'.symm.trans houtput) (ne_refusal_of_short ho hfront hlength)

/-- **Every move keeps it so.** -/
theorem IsSettled.move {occurrence : Occurrence} (h : c.IsSettled)
    (hm : Move now hub c occurrence next) : next.2.IsSettled := by
  refine ⟨h.placed.move hm, fun houtput => ?_⟩
  have hplaced := h.placed
  cases hs : c.stage with
  | ended result =>
    obtain ⟨-, room, rfl⟩ := move_of_ended (by simp only [hasEnded, hs]) hm
    exact h.refused houtput
  | serving receiver =>
    rw [Placed, hs] at hplaced
    have hcontinues := continues_of_move hm
    exact absurd houtput (IsUpgraded.output_ne hplaced hcontinues.output_prefix)
  | handshaking handshake =>
    rw [Placed, hs] at hplaced
    have hwaiting : c.IsWaiting := hplaced
    have hnothing : c.outlet.output ≠ Transmission.refusal := by
      rw [hwaiting.output_eq]
      decide +kernel
    cases hm
    case rest => exact absurd houtput hnothing
    case limit room => exact absurd houtput hnothing
    case receive bytes =>
      rw [outlet_receive] at houtput
      exact absurd houtput hnothing
    case conclude hstage ho => exact refused_conclude hwaiting ho now hub houtput
    case leaveEarly => exact absurd houtput hnothing
    case loseEarly => exact absurd houtput hnothing
    case timeOut => exact absurd houtput hnothing
    case timeOutAnswering outlet _ _ ho hw =>
      obtain ⟨front, hfront, hlength, hfronted, -⟩ := Outlet.front_of_write (congrArg Prod.fst hw)
      rw [hw] at hfronted
      have houtlet : outlet.output = c.outlet.output ++ front := hfronted
      rw [hwaiting.output_eq, List.nil_append] at houtlet
      exact absurd (houtlet.symm.trans houtput) (ne_refusal_of_short ho hfront hlength)
    -- every other move is one of a connection that serves its client
    all_goals
      have hserving := hs.symm.trans ‹c.stage = .serving _›
      cases hserving

/-- Whoever was refused was sent the whole refusal and nothing else, and nobody else was. -/
theorem IsSettled.isRefusal_iff (h : c.IsSettled) :
    c.stage.isRefusal = true ↔ c.outlet.output = Transmission.refusal := by
  refine ⟨fun hrefused => ?_, h.refused⟩
  have hplaced := h.placed
  unfold Stage.isRefusal at hrefused
  split at hrefused
  · next hs =>
    rw [Placed, hs] at hplaced
    exact hplaced.2.2
  · cases hrefused

/-- A connection that serves its client and goes on in whatever way. -/
theorem IsSettled.respond {receiver : Option Receiver} (h : c.IsSettled)
    (hs : c.stage = .serving receiver) (hub : Hub) (response : Response) :
    (c.respond hub response).2.IsSettled := by
  have hplaced := h.placed
  rw [Placed, hs] at hplaced
  have hcounted : IsUpgraded { c with session := c.session.addMessage } :=
    IsUpgraded.continues hplaced (.of_session c.session.advances_addMessage _ _) rfl
  refine ⟨placed_message (c := { c with session := c.session.addMessage }) hs hcounted _ _,
    fun houtput => ?_⟩
  have hcontinues := BusyNetwork.continues_respond hub c response
  exact absurd houtput (IsUpgraded.output_ne hplaced hcontinues.output_prefix)

end Connection

namespace BusyNetwork

variable {b b' : BusyNetwork} {conn : Nat} {c c' : Connection} {who : Option Nat}
  {occurrence : Connection.Occurrence} {notice : Option (Nat × Notice)} {rest : Metrics}

/-! ## Every moment of every run -/

/-- The counters are right, and so is what they are told of the connections. -/
structure Tallied (b : BusyNetwork) (rest : Metrics) : Prop where
  serving : b.AnswersServing
  settled : ∀ c ∈ b.network.connections, c.IsSettled
  balanced : b.Balanced rest

theorem settled_turn (h : ∀ c ∈ b.network.connections, c.IsSettled) (hserving : b.AnswersServing)
    (ht : b.Turn who occurrence notice b') : ∀ c ∈ b'.network.connections, c.IsSettled := by
  have hset : ∀ {conn : Nat} {c d : Connection}, b.network.connections[conn]? = some c →
      (c.IsSettled → d.IsSettled) → ∀ c ∈ b.network.connections.set conn d, c.IsSettled := by
    intro conn c d hc hd c' hc'
    rcases List.mem_or_eq_of_mem_set hc' with hmem | rfl
    · exact h c' hmem
    · exact hd (h c (List.mem_of_getElem? hc))
  cases ht with
  | rest => exact h
  | connect session =>
    intro c hc
    rcases List.mem_append.mp hc with hold | hnew
    · exact h c hold
    · obtain rfl := List.mem_singleton.mp hnew
      refine ⟨Connection.placed_start _ session b.network.now b.network.hub, fun houtput => ?_⟩
      have hnothing : ([] : Bytes) = Transmission.refusal := houtput
      exact absurd hnothing (by decide +kernel)
  | pass milliseconds => exact h
  | receive bytes hc =>
    exact hset hc fun hsettled =>
      @Connection.IsSettled.move b.network.now b.network.hub _ _ _ hsettled (.receive bytes)
  | limit room hc =>
    exact hset hc fun hsettled =>
      @Connection.IsSettled.move b.network.now b.network.hub _ _ _ hsettled (.limit room)
  | move hc _ hmove => exact hset hc fun hsettled => hsettled.move hmove
  | begin hc _ _ =>
    exact hset hc fun hsettled =>
      ⟨hsettled.placed.of_eq rfl rfl rfl rfl rfl rfl rfl, hsettled.refused⟩
  | publish _ => exact h
  | @respond _ _ response c hc ha =>
    obtain ⟨c', hc', receiver, hs⟩ := hserving _ _ ha
    obtain rfl := Option.some.inj (hc.symm.trans hc')
    exact hset hc fun hsettled => hsettled.respond hs b.network.hub response

theorem Tallied.turn (h : b.Tallied rest) (ht : b.Turn who occurrence notice b') : b'.Tallied rest where
  serving := h.serving.turn ht
  settled := settled_turn h.settled h.serving ht
  balanced := h.balanced.turn h.serving ht

/-- **The run**: the counters are right at every moment. -/
theorem Tallied.run (h : b.Tallied rest) (steps : List Step) : (b.run steps).Tallied rest := by
  induction steps generalizing b with
  | nil => exact h
  | cons step steps ih =>
    obtain ⟨who, occurrence, notice, htakes⟩ := takes_step b step
    exact ih (h.turn htakes.turn)

theorem tallied_start (config : Config) (store : Store) :
    (ofNetwork (Network.start config store)).Tallied 0 where
  serving := fun _ _ ha => nomatch ha
  settled := fun _ hc => (List.not_mem_nil hc).elim
  balanced := (zero_add 0).symm

/-! ## How many -/

/-- The step makes a connection. -/
def Step.isConnect : Step → Bool
  | .act (.connect _) => true
  | _ => false

theorem length_step (b : BusyNetwork) (step : Step) :
    (b.step step).network.connections.length =
      b.network.connections.length + (if step.isConnect then 1 else 0) := by
  cases step with
  | publish conn =>
    simp only [BusyNetwork.step]
    split <;> rfl
  | respond conn =>
    simp only [BusyNetwork.step]
    split
    · exact List.length_set
    · rfl
  | act action =>
    cases hconn : action.connection? with
    | none =>
      cases action with
      | connect session => exact List.length_append
      | pass milliseconds => rfl
      | _ => cases hconn
    | some conn =>
      have hnot : (Step.act action).isConnect = false := by
        cases action with
        | connect session => cases hconn
        | _ => rfl
      rw [hnot]
      show _ = b.network.connections.length
      cases hc : b.network.connections[conn]? with
      | none => simp only [BusyNetwork.step, hconn, hc]
      | some c =>
        simp only [BusyNetwork.step, hconn, hc]
        split
        · rfl
        · split
          · exact List.length_set
          · rw [Network.act_of_get hconn hc]
            exact List.length_set

theorem length_run (b : BusyNetwork) (steps : List Step) :
    (b.run steps).network.connections.length =
      b.network.connections.length + steps.countP Step.isConnect := by
  induction steps generalizing b with
  | nil => rfl
  | cons step steps ih =>
    show (run (b.step step) steps).network.connections.length = _
    rw [ih, length_step, List.countP_cons, Nat.add_right_comm, Nat.add_assoc]

/-- How many messages the sessions count together. -/
def messages (b : BusyNetwork) : Nat := (b.network.connections.map fun c => c.messages.toNat).sum

theorem messages_turn (ht : b.Turn who occurrence notice b') : b'.messages ≤ b.messages + 1 := by
  have hset : ∀ {conn : Nat} {c c' : Connection}, b.network.connections[conn]? = some c →
      c'.messages.toNat ≤ c.messages.toNat + 1 →
      ((b.network.connections.set conn c').map fun c => c.messages.toNat).sum ≤ b.messages + 1 := by
    intro conn c c' hc hle
    have hget : (b.network.connections.map fun c => c.messages.toNat)[conn]? =
        some c.messages.toNat := by
      rw [List.getElem?_map, hc]
      rfl
    have hsum := sum_set_add hget c'.messages.toNat
    rw [← List.map_set] at hsum
    unfold messages
    omega
  have hkept : ∀ {conn : Nat} {c c' : Connection}, b.network.connections[conn]? = some c →
      c'.messages = c.messages →
      ((b.network.connections.set conn c').map fun c => c.messages.toNat).sum ≤ b.messages + 1 :=
    fun hc hm => hset hc (by rw [hm]; omega)
  cases ht with
  | rest => exact Nat.le_succ _
  | connect session =>
    show ((b.network.connections ++ [_]).map _).sum ≤ _
    rw [List.map_append, List.sum_append]
    exact Nat.le_succ _
  | pass milliseconds => exact Nat.le_succ _
  | receive bytes hc => exact hkept hc (Connection.messages_receive _ _ _)
  | limit room hc => exact hkept hc rfl
  | move hc _ hmove => exact hkept hc (Connection.messages_of_move hmove)
  | begin hc _ _ => exact hkept hc rfl
  | publish _ => exact Nat.le_succ _
  | respond hc _ =>
    refine hset hc ?_
    rw [Connection.messages_respond, UInt64.toNat_add]
    exact Nat.mod_le _ _

theorem messages_run (b : BusyNetwork) (steps : List Step) :
    (b.run steps).messages ≤ b.messages + steps.length := by
  induction steps generalizing b with
  | nil => exact Nat.le_refl _
  | cons step steps ih =>
    obtain ⟨who, occurrence, notice, htakes⟩ := takes_step b step
    have hstep := messages_turn htakes.turn
    have hrest := ih (b.step step)
    show (run (b.step step) steps).messages ≤ b.messages + (steps.length + 1)
    omega

theorem length_handed_le (conn : Nat) (b : BusyNetwork) (steps : List Step) :
    (handed conn b steps).length ≤ steps.length := by
  induction steps generalizing b with
  | nil => exact Nat.le_refl _
  | cons step steps ih =>
    have hone : ((b.asked? conn step).toList).length ≤ 1 := by
      cases b.asked? conn step <;> simp
    have hrest := ih (b.step step)
    show ((b.asked? conn step).toList.map _ ++ handed conn (b.step step) steps).length ≤ _
    rw [List.length_append, List.length_map, List.length_cons]
    omega

/-- What a connection hands over in a step of its own is answered and counted, or is being answered. -/
theorem messages_own {answering : Option Answering} (ho : b.Own conn c occurrence answering c')
    {count : Nat} (hcount : c.messages.toNat + (b.answering conn).toList.length = count)
    (hfew : count < 2 ^ 64) :
    c'.messages.toNat + answering.toList.length = count + (b.handover occurrence).length := by
  cases ho with
  | receive bytes =>
    rw [handover_of_none rfl, Connection.messages_receive]
    exact hcount
  | limit room =>
    rw [handover_of_none rfl]
    exact hcount
  | move hfree hmove =>
    rw [handover_of_none (Connection.request?_of_move hmove), Connection.messages_of_move hmove]
    rw [hfree] at hcount
    exact hcount
  | @begin text rest hfree hq =>
    have hasked : c.workOccurrence.request? = some text := by
      rw [Connection.request?_workOccurrence, hq]
      rfl
    rw [hfree] at hcount
    rw [handover, hasked, ← hcount]
    rfl
  | publish ha =>
    rw [ha] at hcount
    rw [handover_of_none rfl]
    exact hcount
  | respond ha =>
    rw [ha] at hcount
    change c.messages.toNat + 1 = count at hcount
    rw [handover_of_none rfl, Connection.messages_respond, UInt64.toNat_add]
    show (c.messages.toNat + 1) % 2 ^ 64 + 0 = count + 0
    rw [hcount, Nat.mod_eq_of_lt hfew]

/-- **What a connection has handed over is answered and counted, but for what is being answered.** -/
theorem messages_handed {config : Config} {store : Store} {steps : List Step}
    (hfew : steps.length < 2 ^ 64)
    (hc : ((ofNetwork (Network.start config store)).run steps).network.connections[conn]? = some c) :
    let start := ofNetwork (Network.start config store)
    c.messages.toNat + ((start.run steps).answering conn).toList.length =
      (handed conn start steps).length := by
  intro start
  refine @forall_connection config store (fun steps => handed conn start steps = [])
    (fun steps answering c => (handed conn start steps).length < 2 ^ 64 →
      c.messages.toNat + answering.toList.length = (handed conn start steps).length)
    conn ?_ ?_ ?_ ?_ ?_ steps c hc (Nat.lt_of_le_of_lt (length_handed_le _ _ _) hfew)
  · rfl
  · intro steps step hhanded hsilent
    rw [handed_concat, hsilent, hhanded]
    rfl
  · intro steps step session hhanded b hfew
    rw [hhanded]
    rfl
  · intro steps step answering c hcount hsilent hfew
    rw [handed_concat, hsilent, handover_of_none rfl, List.append_nil] at hfew ⊢
    exact hcount hfew
  · intro steps step occurrence answering c c' b hcount hc hseen hown hcontinues hfew
    rw [handed_concat, hseen, List.length_append] at hfew ⊢
    have hbefore := Nat.lt_of_le_of_lt (Nat.le_add_right _ _) hfew
    exact messages_own hown (hcount hbefore) hbefore

/-- Where nothing is being answered, all that was handed over is counted. -/
theorem messages_eq_handed {config : Config} {store : Store} {steps : List Step}
    (hfew : steps.length < 2 ^ 64)
    (hrest : ∀ conn, ((ofNetwork (Network.start config store)).run steps).answering conn = none) :
    let start := ofNetwork (Network.start config store)
    (start.run steps).messages = ((List.range (start.run steps).network.connections.length).map
      fun conn => (handed conn start steps).length).sum := by
  intro start
  refine congrArg List.sum (List.ext_getElem ?_ fun conn hmessages hhanded => ?_)
  · rw [List.length_map, List.length_map, List.length_range]
  · rw [List.getElem_map, List.getElem_map, List.getElem_range]
    rw [List.length_map] at hmessages
    have hcount : _ + ((start.run steps).answering conn).toList.length = _ :=
      messages_handed hfew (List.getElem?_eq_getElem hmessages)
    have hnone : (start.run steps).answering conn = none := hrest conn
    rw [hnone] at hcount
    exact hcount

/-- **The counters tell what the connections did.**  Whatever the settings and the table, whatever happens
to the clients and however the steps of the connections interleave, at every moment: the connections ever
served are those that were made; those served at present are those that have not ended and those that have
broken off, so there is none left when all have ended and none has broken off; the upgrade requests
rejected are those whose clients were sent the whole refusal, and nothing else; and the messages handled
are those that the sessions count, which for each of them are the requests that it has handed to the
directory and is not in the middle of answering.

A connection breaks off only where the limit on messages lets a frame through that no buffer holds, or where
the clock does not reach the moment until which the connection is to wait. -/
theorem counted_run (config : Config) (store : Store) (steps : List Step)
    (hfew : steps.length < 2 ^ 64) :
    let start := ofNetwork (Network.start config store)
    let last := start.run steps
    let connections := last.network.connections
    let metrics := last.network.hub.metrics
    (metrics.total.toNat = connections.length ∧ connections.length = steps.countP Step.isConnect) ∧
      (metrics.active.toNat =
          connections.countP (fun c => !c.hasEnded) + connections.countP Connection.brokeOff ∧
        ((∀ c ∈ connections, c.brokeOff = false) →
          metrics.active.toNat = connections.countP (fun c => !c.hasEnded) ∧
            ((∀ c ∈ connections, c.hasEnded = true) → metrics.active = 0)) ∧
        ∀ c ∈ connections, c.brokeOff = true → 2 ^ 63 ≤ config.maxMessageSize.toNat + 14 ∨
          ∃ idle, config.idleTimeout = some idle ∧ clockEnd ≤ c.session.lastActivity + idle) ∧
      metrics.rejected.toNat = connections.countP (fun c => c.outlet.output = Transmission.refusal) ∧
      (metrics.messages.toNat = (connections.map fun c => c.session.traffic.messages.toNat).sum ∧
        (∀ conn c, connections[conn]? = some c →
          c.session.traffic.messages.toNat + (last.answering conn).toList.length =
            (handed conn start steps).length) ∧
        ((∀ conn, last.answering conn = none) → metrics.messages.toNat =
          ((List.range connections.length).map fun conn => (handed conn start steps).length).sum)) ∧
      metrics.refused = 0 := by
  intro start last connections metrics
  obtain ⟨-, hsettled, hbalanced⟩ := (tallied_start config store).run steps
  have hmetrics : metrics = (connections.map Connection.share).sum := hbalanced.trans (add_zero _)
  rw [sum_share] at hmetrics
  have hlength : connections.length = steps.countP Step.isConnect := by
    have hrun := length_run start steps
    rwa [show start.network.connections.length = 0 from rfl, Nat.zero_add] at hrun
  have hmade : connections.length < 2 ^ 64 := by
    rw [hlength]
    exact Nat.lt_of_le_of_lt List.countP_le_length hfew
  have hcounted : ∀ p : Connection → Bool, (UInt64.ofNat (connections.countP p)).toNat =
      connections.countP p :=
    fun p => Nat.mod_eq_of_lt (Nat.lt_of_le_of_lt List.countP_le_length hmade)
  have hactive : metrics.active.toNat =
      connections.countP (fun c => !c.hasEnded) + connections.countP Connection.brokeOff := by
    rw [hmetrics, ← Connection.countP_isCounted]
    exact hcounted _
  have hmessages : metrics.messages.toNat = last.messages := by
    have hbound := messages_run start steps
    rw [show start.messages = 0 from rfl, Nat.zero_add] at hbound
    rw [hmetrics]
    exact Nat.mod_eq_of_lt (Nat.lt_of_le_of_lt hbound hfew)
  refine ⟨⟨?_, hlength⟩, ⟨hactive, fun hwhole => ?_, fun c hc hbroken => ?_⟩, ?_,
    ⟨hmessages, ?_, ?_⟩, ?_⟩
  · rw [hmetrics]
    exact Nat.mod_eq_of_lt hmade
  · have hnone : connections.countP Connection.brokeOff = 0 :=
      List.countP_eq_zero.mpr fun c hc => by simp [hwhole c hc]
    rw [hnone, Nat.add_zero] at hactive
    refine ⟨hactive, fun hended => ?_⟩
    have hall : connections.countP (fun c => !c.hasEnded) = 0 :=
      List.countP_eq_zero.mpr fun c hc => by simp [hended c hc]
    rw [hall] at hactive
    exact UInt64.toNat_inj.mp hactive
  · obtain ⟨conn, hlt, rfl⟩ := List.mem_iff_getElem.mp hc
    obtain ⟨hconfig, -⟩ := progress_run (List.getElem?_eq_getElem hlt)
    change connections[conn].config = config at hconfig
    have hcause := ((hsettled _ hc).placed.broken hbroken).2
    rw [hconfig] at hcause
    exact hcause
  · rw [hmetrics]
    refine (hcounted _).trans (List.countP_congr fun c hc => ?_)
    rw [decide_eq_true_iff]
    exact (hsettled c hc).isRefusal_iff
  · exact fun conn c hc => messages_handed hfew hc
  · exact fun hrest => hmessages.trans (messages_eq_handed hfew hrest)
  · rw [hmetrics]

/-- One client is refused, and another is there. -/
theorem counted_of_refused :
    let steps : List Step := [.act (.connect 1), .act (.connect 2),
      .act (.receive 0 [88, 13, 10, 13, 10]), .act (.advance 0)]
    let last := (ofNetwork (Network.start {})).run steps
    let connections := last.network.connections
    let metrics := last.network.hub.metrics
    steps.length < 2 ^ 64 ∧ metrics = { total := 2, active := 1, rejected := 1 } ∧
      metrics.total.toNat = connections.length ∧
      metrics.active.toNat =
        connections.countP (fun c => !c.hasEnded) + connections.countP Connection.brokeOff ∧
      metrics.rejected.toNat = connections.countP (fun c => c.outlet.output = Transmission.refusal) := by
  intro steps last connections metrics
  have hfew : steps.length < 2 ^ 64 := by decide
  obtain ⟨⟨htotal, -⟩, ⟨hactive, -⟩, hrejected, -⟩ := counted_run {} .empty steps hfew
  refine ⟨hfew, ?_, htotal, hactive, hrejected⟩
  decide +kernel

/-- Where a frame may be of any size, a client sends the beginning of one that no buffer can hold: all
connections have ended, and one is counted as if it had not. -/
theorem counted_after_end :
    let last := (ofNetwork (Network.start boundless)).run [.act (.connect 1),
      .act (.receive 0 upgradeRequest), .act (.advance 0), .act (.receive 0 boundlessFrame),
      .act (.advance 0)]
    (last.network.connections.map Connection.hasEnded, last.network.hub.metrics.active) =
      ([true], 1) := by
  decide +kernel

end BusyNetwork

end ServiceDirectory
