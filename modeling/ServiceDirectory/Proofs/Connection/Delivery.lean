import ServiceDirectory.Proofs.Connection.Phases
import ServiceDirectory.Proofs.Connection.Replies
import ServiceDirectory.Proofs.Directory.Subscription

/-!
# What a served client is sent

A `Delivery` is what can be told of a connection from the moment that it begins to serve its client: the
bytes that came from the client, what was taken in from them, and the notices that were published.  From
these it is determined which replies and which events the client is to be sent
(`Delivery.replies`, `Delivery.events`); only how the two are mixed is not.

`Delivery.Reaches` says that so far a connection has sent just that, in order.  It has gone through the
log as far as its receiver has, and through the bytes of the client as far as its inbox begins, so every
move keeps it so (`Delivery.Reaches.move`).
-/

namespace ServiceDirectory

open WebSocket (CloseCode Frame Incoming Violation)
open Upgrade (Handshake Outcome SwitchingHead)

/-! ## Events -/

/-- The events by which a connection tells its client of notices, each with the number of the connection
that published it: its own are left out. -/
def eventsFor (conn : Nat) (log : List (Nat × Notice)) : List Frame :=
  (log.filter fun made => made.1 ≠ conn).map fun made => .ofText made.2.payload

theorem eventsFor_mono (conn : Nat) {first second : List (Nat × Notice)} (h : first <+: second) :
    eventsFor conn first <+: eventsFor conn second :=
  (h.filter _).map _

/-- One more notice of the log. -/
theorem eventsFor_take_succ {conn n : Nat} {log : List (Nat × Notice)} {made : Nat × Notice}
    (h : log[n]? = some made) :
    eventsFor conn (log.take (n + 1)) =
      eventsFor conn (log.take n) ++ if made.1 = conn then [] else [.ofText made.2.payload] := by
  rw [List.take_add_one, h, eventsFor, List.filter_append, List.map_append]
  congr 1
  by_cases hown : made.1 = conn <;> simp [hown]

/-! ## Deliveries -/

/-- What can be told of a connection from the moment that it begins to serve its client. -/
structure Delivery where
  /-- The number of the connection. -/
  conn : Nat
  session : SessionId
  /-- The limit on messages. -/
  limit : UInt64
  /-- What went through before: the head that switches protocols. -/
  head : Bytes
  /-- The position in the channel of the first notice. -/
  start : Nat
  /-- The bytes of the client that came behind its upgrade request. -/
  stream : Bytes
  /-- The notices published, each with the number of the connection that published it. -/
  log : List (Nat × Notice) := []
  /-- What was taken in. -/
  receptions : List Reception := []

namespace Delivery

/-- A connection has just begun to serve its client, and its receiver stands at this position. -/
def opening (conn start : Nat) (c : Connection) : Delivery :=
  { conn, session := c.session.id, limit := c.config.maxMessageSize, head := c.outlet.output, start
    stream := c.inbox }

/-- The same after one more step. -/
def after (d : Delivery) (occurrence : Connection.Occurrence) (directory : Directory)
    (notice : Option (Nat × Notice)) : Delivery :=
  { d with
    stream := d.stream ++ occurrence.bytes
    log := d.log ++ notice.toList
    receptions := d.receptions ++ occurrence.receptions directory }

/-- The events that the client is to be sent. -/
def events (d : Delivery) : List Frame := eventsFor d.conn d.log

/-- The replies that the client is to be sent. -/
def replies (d : Delivery) : List Frame := repliesTo d.session d.receptions

/-- Every notice is that of a change, and bears the number of the session just if its connection
published it. -/
def Attributed (d : Delivery) : Prop :=
  ∀ made ∈ d.log, ∃ change session, made.2 = Change.notice change session ∧
    (session = d.session ↔ made.1 = d.conn)

/-- **Frames in order.**  Without the replies they are the first of the events; without the events, and
with a reply that is due behind them, they are all the replies to what was taken in, and at the end a
close frame to a client that was idle.  What was taken in is what came first in the client's bytes. -/
structure Allows (d : Delivery) (frames due idle : List Frame) : Prop where
  events_prefix : frames.filter Frame.isEvent <+: d.events
  replies_eq : frames.filter (!·.isEvent) ++ due = d.replies ++ idle
  idle_eq : idle = [] ∨ idle = [.ofClose (some .goingAway)]
  stream_prefix : ∀ more, d.receptions.map (·.incoming) <+:
    (Frame.readAll d.limit (d.stream ++ more)).incoming

/-- **What went through**: these frames behind the head, and of a last one only a front. -/
structure Passes (d : Delivery) (frames : List Frame) (last : Option Frame) (rest : Bytes)
    (outlet : Outlet) : Prop where
  output_eq : outlet.output = d.head ++ frames.flatMap Frame.bytes ++ rest
  rest_eq : last = none → rest = []
  rest_front : ∀ frame, last = some frame →
    rest <+: frame.bytes ∧ rest.length < frame.bytes.length ∧ outlet.cut = true

/-- So far these frames went through, and further ones may. -/
structure Sent (d : Delivery) (frames : List Frame) (outlet : Outlet) : Prop where
  output_eq : outlet.output = d.head ++ frames.flatMap Frame.bytes
  whole : outlet.cut = false

/-- A connection goes on serving its client: with these frames, and a reply that is due, it has told of
the first `read` notices and replied to all that was taken in, and the other bytes are in the inbox. -/
structure Keeps (d : Delivery) (read : Nat) (frames due : List Frame) (c : Connection) : Prop where
  stage_eq : c.stage = .serving (some ⟨d.start + read⟩)
  session_eq : c.session.id = d.session
  limit_eq : c.config.maxMessageSize = d.limit
  read_le : read ≤ d.log.length
  events_eq : frames.filter Frame.isEvent = eventsFor d.conn (d.log.take read)
  replies_eq : frames.filter (!·.isEvent) ++ due = d.replies
  stream_eq : ∀ more, (Frame.readAll d.limit (d.stream ++ more)).incoming =
    d.receptions.map (·.incoming) ++ (Frame.readAll d.limit (c.inbox ++ more)).incoming

/-- So far a connection has sent what the client is to be sent, but for a reply that is due. -/
inductive Reaches (d : Delivery) (due : List Frame) (c : Connection) : Prop where
  | serving {read : Nat} {frames : List Frame} (keeps : d.Keeps read frames due c)
      (sent : d.Sent frames c.outlet)
  | ended {frames : List Frame} {last : Option Frame} {rest : Bytes} {idle : List Frame}
      (ended : c.hasEnded = true) (due_eq : due = [])
      (allows : d.Allows (frames ++ last.toList) [] idle) (passes : d.Passes frames last rest c.outlet)

/-- Until the connection has ended, the channel keeps the notices of the log. -/
def Fed (d : Delivery) (directory : Directory) (c : Connection) : Prop :=
  c.hasEnded = false → ∃ channel, directory.feed = some channel ∧
    channel.Logs d.start (d.log.map Prod.snd)

variable {d : Delivery} {c c' : Connection} {hub : Hub} {read : Nat} {frame : Frame}
  {frames due idle : List Frame} {outlet outlet' : Outlet}

/-! ## Frames in order -/

theorem after_silent (d : Delivery) (directory : Directory) :
    d.after .silent directory none = d := by
  simp [after, Connection.Occurrence.bytes, Connection.Occurrence.receptions,
    Connection.Occurrence.incoming?]

theorem log_after (d : Delivery) (occurrence : Connection.Occurrence) (directory : Directory) :
    (d.after occurrence directory none).log = d.log :=
  List.append_nil _

/-- What can be told of a step in which nothing is taken in. -/
theorem receptions_after {occurrence : Connection.Occurrence} (h : occurrence.incoming? = none)
    (d : Delivery) (directory : Directory) (notice : Option (Nat × Notice)) :
    (d.after occurrence directory notice).receptions = d.receptions := by
  simp [after, Connection.Occurrence.receptions, h]

theorem replies_after {occurrence : Connection.Occurrence} (h : occurrence.incoming? = none)
    (d : Delivery) (directory : Directory) (notice : Option (Nat × Notice)) :
    (d.after occurrence directory notice).replies = d.replies := by
  rw [replies, receptions_after h]
  rfl

/-- What is taken in calls for its reply. -/
theorem replies_intake (d : Delivery) (incoming : Incoming) (directory : Directory) :
    (d.after (.intake incoming) directory none).replies =
      d.replies ++ (incoming.reply? directory d.session).toList :=
  repliesTo_concat d.session d.receptions incoming directory

/-- Frames stay in order when more bytes arrive and when more is published. -/
theorem Allows.after (h : d.Allows frames due idle) {occurrence : Connection.Occurrence}
    (ho : occurrence.incoming? = none) (directory : Directory) (notice : Option (Nat × Notice)) :
    (d.after occurrence directory notice).Allows frames due idle where
  events_prefix := h.events_prefix.trans (eventsFor_mono d.conn (List.prefix_append _ _))
  replies_eq := by
    rw [replies_after ho]
    exact h.replies_eq
  idle_eq := h.idle_eq
  stream_prefix := by
    intro more
    rw [receptions_after ho]
    show _ <+: (Frame.readAll d.limit (d.stream ++ occurrence.bytes ++ more)).incoming
    rw [List.append_assoc]
    exact h.stream_prefix _

/-- A reply that is due is sent. -/
theorem Allows.reply (h : d.Allows frames [frame] idle) (he : frame.isEvent = false) :
    d.Allows (frames ++ [frame]) [] idle where
  events_prefix := by
    simpa [he] using h.events_prefix
  replies_eq := by
    simpa [he] using h.replies_eq
  idle_eq := h.idle_eq
  stream_prefix := h.stream_prefix

/-- A client that was idle for too long is sent a close frame. -/
theorem Allows.goingAway (h : d.Allows frames [] []) :
    d.Allows (frames ++ [.ofClose (some .goingAway)]) [] [.ofClose (some .goingAway)] where
  events_prefix := by
    simpa [Frame.isEvent_ofClose] using h.events_prefix
  replies_eq := by
    simpa [Frame.isEvent_ofClose] using h.replies_eq
  idle_eq := .inr rfl
  stream_prefix := h.stream_prefix

theorem Keeps.allows (h : d.Keeps read frames due c) : d.Allows frames due [] where
  events_prefix := by
    rw [h.events_eq]
    exact eventsFor_mono d.conn (List.take_prefix _ _)
  replies_eq := by
    rw [List.append_nil]
    exact h.replies_eq
  idle_eq := .inl rfl
  stream_prefix := by
    intro more
    rw [h.stream_eq]
    exact List.prefix_append _ _

/-! ## A connection that goes on -/

/-- What counts for `Keeps`. -/
theorem Keeps.of_eq (h : d.Keeps read frames due c) (hstage : c'.stage = c.stage)
    (hid : c'.session.id = c.session.id) (hconfig : c'.config = c.config)
    (hinbox : c'.inbox = c.inbox) : d.Keeps read frames due c' where
  stage_eq := hstage.trans h.stage_eq
  session_eq := hid.trans h.session_eq
  limit_eq := hconfig ▸ h.limit_eq
  read_le := h.read_le
  events_eq := h.events_eq
  replies_eq := h.replies_eq
  stream_eq := hinbox ▸ h.stream_eq

theorem Keeps.reply (h : d.Keeps read frames [frame] c) (he : frame.isEvent = false) :
    d.Keeps read (frames ++ [frame]) [] c where
  stage_eq := h.stage_eq
  session_eq := h.session_eq
  limit_eq := h.limit_eq
  read_le := h.read_le
  events_eq := by
    simpa [he] using h.events_eq
  replies_eq := by
    simpa [he] using h.replies_eq
  stream_eq := h.stream_eq

/-- More bytes arrive, or more is published. -/
theorem Keeps.after (h : d.Keeps read frames due c) {occurrence : Connection.Occurrence}
    (ho : occurrence.incoming? = none) (directory : Directory) (notice : Option (Nat × Notice))
    (hinbox : c'.inbox = c.inbox ++ occurrence.bytes) (hstage : c'.stage = c.stage)
    (hid : c'.session.id = c.session.id) (hconfig : c'.config = c.config) :
    (d.after occurrence directory notice).Keeps read frames due c' where
  stage_eq := hstage.trans h.stage_eq
  session_eq := hid.trans h.session_eq
  limit_eq := hconfig ▸ h.limit_eq
  read_le := by
    show read ≤ (d.log ++ notice.toList).length
    rw [List.length_append]
    exact Nat.le_add_right_of_le h.read_le
  events_eq := by
    show _ = eventsFor d.conn ((d.log ++ notice.toList).take read)
    rw [List.take_append_of_le_length h.read_le]
    exact h.events_eq
  replies_eq := by
    rw [replies_after ho]
    exact h.replies_eq
  stream_eq := by
    intro more
    rw [receptions_after ho, hinbox]
    show (Frame.readAll d.limit (d.stream ++ occurrence.bytes ++ more)).incoming = _
    rw [List.append_assoc, List.append_assoc]
    exact h.stream_eq _

/-- A frame is taken in: its reply is due. -/
theorem Keeps.intake (h : d.Keeps read frames [] c) {rest : Bytes}
    (hr : Frame.readMasked c.config.maxMessageSize c.inbox = .frame frame rest)
    (directory : Directory) :
    (d.after (.intake (.frame frame)) directory none).Keeps read frames
      (frame.reply? directory d.session).toList { c with inbox := rest } where
  stage_eq := h.stage_eq
  session_eq := h.session_eq
  limit_eq := h.limit_eq
  read_le := by
    rw [log_after]
    exact h.read_le
  events_eq := by
    rw [log_after]
    exact h.events_eq
  replies_eq := by
    rw [replies_intake, ← h.replies_eq, List.append_nil]
    rfl
  stream_eq := by
    intro more
    show (Frame.readAll d.limit (d.stream ++ [] ++ more)).incoming =
      (d.receptions ++ [Reception.mk (.frame frame) directory]).map (·.incoming) ++ _
    rw [h.limit_eq] at hr
    rw [List.append_nil, h.stream_eq, Frame.incoming_readAll_of_frame hr, List.map_append,
      List.append_assoc]
    rfl

/-- A rule is broken: the close frame that says so is due, and nothing further is taken in. -/
theorem Keeps.violate (h : d.Keeps read frames [] c) {cause : Violation} {rest : Bytes}
    (hr : Frame.readMasked c.config.maxMessageSize c.inbox = .violation cause rest)
    (directory : Directory) :
    (d.after (.intake (.broken cause)) directory none).Allows frames
      [.ofClose (some cause.closeCode)] [] where
  events_prefix := by
    rw [events, log_after]
    exact h.allows.events_prefix
  replies_eq := by
    rw [replies_intake, ← h.replies_eq, List.append_nil, List.append_nil]
    rfl
  idle_eq := .inl rfl
  stream_prefix := by
    intro more
    show (d.receptions ++ [Reception.mk (.broken cause) directory]).map (·.incoming) <+:
      (Frame.readAll d.limit (d.stream ++ [] ++ more)).incoming
    rw [h.limit_eq] at hr
    rw [List.append_nil, h.stream_eq, Frame.incoming_readAll_of_violation hr, List.map_append]
    exact List.prefix_refl _

/-- The next notice of the log, and the receiver behind it. -/
theorem Keeps.receive (h : d.Keeps read frames [] c) (ha : d.Attributed) {channel : Channel Notice}
    (hlogs : channel.Logs d.start (d.log.map Prod.snd)) {receiver next : Receiver} {notice : Notice}
    (hs : c.stage = .serving (some receiver))
    (hr : channel.receive receiver = (.message notice, next)) :
    d.Keeps (read + 1)
      (frames ++ if notice.origin = c.session.id then [] else [.ofText notice.payload]) []
      { c with stage := .serving (some next) } := by
  rw [h.stage_eq] at hs
  obtain rfl : ⟨d.start + read⟩ = receiver := Option.some.inj (Stage.serving.inj hs)
  obtain ⟨hmessage, rfl⟩ := hlogs.of_receive (by simpa using h.read_le) hr
  rw [List.getElem?_map] at hmessage
  obtain ⟨made, hmade, rfl⟩ := Option.map_eq_some_iff.mp hmessage
  obtain ⟨change, session, hnotice, hown⟩ := ha made (List.mem_of_getElem? hmade)
  have horigin : made.2.origin = c.session.id ↔ made.1 = d.conn := by
    rw [h.session_eq, hnotice]
    exact hown
  have hpayload : made.2.payload = change.toJson.render := by
    rw [hnotice]
    rfl
  refine ⟨rfl, h.session_eq, h.limit_eq, ?_, ?_, ?_, h.stream_eq⟩
  · exact (List.getElem?_eq_some_iff.mp hmade).1
  · rw [List.filter_append, h.events_eq, eventsFor_take_succ hmade]
    congr 1
    by_cases hconn : made.1 = d.conn
    · simp [hconn, horigin.mpr hconn]
    · have hne : made.2.origin ≠ c.session.id := fun heq => hconn (horigin.mp heq)
      rw [if_neg hne, if_neg hconn, hpayload]
      simp [Frame.isEvent_of_change]
  · rw [List.filter_append, ← h.replies_eq]
    by_cases hconn : made.2.origin = c.session.id
    · simp [hconn]
    · simp [hconn, hpayload, Frame.isEvent_of_change]

/-! ## What goes through -/

theorem Sent.append (h : d.Sent frames outlet)
    (ho : outlet'.output = outlet.output ++ frame.bytes) (hc : outlet'.cut = outlet.cut) :
    d.Sent (frames ++ [frame]) outlet' where
  output_eq := by simp [ho, h.output_eq]
  whole := hc.trans h.whole

theorem Sent.passes (h : d.Sent frames outlet) : d.Passes frames none [] outlet where
  output_eq := by rw [h.output_eq, List.append_nil]
  rest_eq := fun _ => rfl
  rest_front := fun _ hnone => nomatch hnone

/-- Only a front of the next frame goes through. -/
theorem Sent.short (h : d.Sent frames outlet) {front : Bytes} (hfront : front <+: frame.bytes)
    (hlength : front.length < frame.bytes.length) (ho : outlet'.output = outlet.output ++ front)
    (hc : outlet'.cut = true) : d.Passes frames (some frame) front outlet' where
  output_eq := by rw [ho, h.output_eq]
  rest_eq := fun hsome => nomatch hsome
  rest_front := by
    intro frame' heq
    obtain rfl := Option.some.inj heq
    exact ⟨hfront, hlength, hc⟩

/-- At first nothing has been sent and nothing is due. -/
theorem reaches_opening {start : Nat} (conn : Nat) (hs : c.stage = .serving (some ⟨start⟩))
    (hcut : c.outlet.cut = false) : (opening conn start c).Reaches [] c :=
  @Reaches.serving _ [] c 0 [] ⟨hs, rfl, rfl, Nat.zero_le _, rfl, rfl, fun _ => rfl⟩
    ⟨(List.append_nil _).symm, hcut⟩

/-- A connection ends between two frames. -/
theorem reaches_ended (h : d.Allows frames [] idle) (hs : d.Sent frames c.outlet)
    (he : c.hasEnded = true) : d.Reaches [] c := by
  have hallows : d.Allows (frames ++ Option.toList none) [] idle := by
    rw [Option.toList_none, List.append_nil]
    exact h
  exact .ended he rfl hallows hs.passes

/-- A connection sends a frame and goes on. -/
theorem reaches_message (h : d.Keeps read (frames ++ [frame]) [] c) (hs : d.Sent frames c.outlet)
    (hub : Hub) : d.Reaches [] (Connection.writeThen hub c frame.bytes Connection.stay).2 := by
  apply Connection.writeThen_cases (P := fun next => d.Reaches [] next.2)
  · intro outlet houtput hcut
    exact .serving (h.of_eq rfl rfl rfl rfl) (hs.append houtput hcut)
  · intro outlet front hfront hlength houtput hcut
    exact .ended rfl rfl h.allows (hs.short hfront hlength houtput hcut)

/-- A connection sends its last frame. -/
theorem reaches_closing (h : d.Allows (frames ++ [frame]) [] idle) (hs : d.Sent frames c.outlet)
    (hub : Hub) :
    d.Reaches []
      (Connection.writeThen hub c frame.bytes fun hub c => Connection.finish hub c (.ok ())).2 := by
  apply Connection.writeThen_cases (P := fun next => d.Reaches [] next.2)
  · intro outlet houtput hcut
    exact reaches_ended h (hs.append houtput hcut) rfl
  · intro outlet front hfront hlength houtput hcut
    exact .ended rfl rfl h (hs.short hfront hlength houtput hcut)

/-- A connection ends with the close frame that says which rule was broken. -/
theorem reaches_fail {cause : Violation} (h : d.Allows frames [.ofClose (some cause.closeCode)] [])
    (hs : d.Sent frames c.outlet) (hub : Hub) : d.Reaches [] (Connection.fail hub c cause).2 := by
  have hallows := h.reply (Frame.isEvent_ofClose _)
  cases hw : (c.outlet.write (Frame.writeClose (some cause.closeCode))).1 with
  | true =>
    obtain ⟨houtput, hcut⟩ := Outlet.write_of_true hw
    exact reaches_ended hallows (hs.append houtput hcut) rfl
  | false =>
    obtain ⟨front, hfront, hlength, houtput, hcut⟩ := Outlet.front_of_write hw
    exact .ended rfl rfl hallows (hs.short hfront hlength houtput hcut)

/-! ## Every step keeps it so -/

/-- More is published. -/
theorem Reaches.publish (h : d.Reaches due c) (directory : Directory)
    (notice : Option (Nat × Notice)) : (d.after .silent directory notice).Reaches due c := by
  cases h with
  | serving keeps sent =>
    exact .serving (keeps.after rfl directory notice (List.append_nil _).symm rfl rfl rfl)
      ⟨sent.output_eq, sent.whole⟩
  | ended ended due_eq allows passes =>
    exact .ended ended due_eq (allows.after rfl directory notice)
      ⟨passes.output_eq, passes.rest_eq, passes.rest_front⟩

/-- More bytes arrive. -/
theorem Reaches.receive (h : d.Reaches due c) (now : Nat) (bytes : Bytes) (directory : Directory) :
    (d.after (.arrival bytes) directory none).Reaches due (c.receive now bytes) := by
  have houtlet := Connection.outlet_receive now c bytes
  cases h with
  | serving keeps sent =>
    have hstage := Connection.stage_receive now c bytes
    have hinbox := Connection.inbox_receive keeps.stage_eq now bytes
    have hcontinues := Connection.continues_receive now c bytes
    exact .serving
      (keeps.after rfl directory none hinbox hstage hcontinues.session.id_eq hcontinues.config_eq)
      ⟨houtlet ▸ sent.output_eq, houtlet ▸ sent.whole⟩
  | ended ended due_eq allows passes =>
    rw [Connection.receive_of_ended ended]
    exact .ended ended due_eq (allows.after rfl directory none)
      ⟨passes.output_eq, passes.rest_eq, passes.rest_front⟩

/-- Fewer bytes will go through. -/
theorem Reaches.limit (h : d.Reaches due c) (room : Option Nat) :
    d.Reaches due { c with outlet := { c.outlet with room } } := by
  cases h with
  | serving keeps sent =>
    exact .serving (keeps.of_eq rfl rfl rfl rfl) ⟨sent.output_eq, sent.whole⟩
  | ended ended due_eq allows passes =>
    exact .ended ended due_eq allows ⟨passes.output_eq, passes.rest_eq, passes.rest_front⟩

/-- The moves of a connection that serves its client. -/
theorem Keeps.move {now : Nat} {occurrence : Connection.Occurrence} {next : Hub × Connection}
    (h : d.Keeps read frames [] c) (hs : d.Sent frames c.outlet) (ha : d.Attributed)
    {channel : Channel Notice} (hfeed : hub.directory.feed = some channel)
    (hlogs : channel.Logs d.start (d.log.map Prod.snd))
    (hm : Connection.Move now hub c occurrence next) (hlag : occurrence.missed? = none) :
    (d.after occurrence hub.directory none).Reaches [] next.2 := by
  have hserving : ∀ {handshake : Handshake}, c.stage ≠ .handshaking handshake :=
    fun hstage => nomatch hstage.symm.trans h.stage_eq
  have hsame : ∀ {other : Channel Notice}, hub.directory.feed = some other →
      other.Logs d.start (d.log.map Prod.snd) :=
    fun hother => Option.some.inj (hfeed.symm.trans hother) ▸ hlogs
  -- what is taken in makes its reply due, which is then sent; what else is sent is an event, or the end
  cases hm with
  | rest =>
    rw [after_silent]
    exact .serving h hs
  | receive bytes => exact (Reaches.serving h hs).receive now bytes hub.directory
  | limit room =>
    rw [after_silent]
    exact (Reaches.serving h hs).limit room
  | conclude hstage _ => exact (hserving hstage).elim
  | @breakOff _ failure _ _ =>
    rw [after_silent]
    exact reaches_ended (c := (Connection.breakOff hub c failure).2) h.allows hs rfl
  | @violation _ _ rest _ hr =>
    exact reaches_fail (c := { c with inbox := rest }) (h.violate hr hub.directory)
      ⟨hs.output_eq, hs.whole⟩ hub
  | @fault _ _ rest _ _ hr hfault =>
    have hintake := (h.intake hr hub.directory).allows
    rw [Frame.reply?_of_fault hfault] at hintake
    exact reaches_fail (c := { c with inbox := rest }) hintake ⟨hs.output_eq, hs.whole⟩ hub
  | @ping _ frame rest _ hr hopcode =>
    have hintake := h.intake hr hub.directory
    rw [Frame.reply?_of_ping hopcode] at hintake
    have hpong : frame.pongOf.isEvent = false := Frame.isEvent_of_opcode fun heq => nomatch heq
    exact reaches_message (c := { c with inbox := rest }) (hintake.reply hpong)
      ⟨hs.output_eq, hs.whole⟩ hub
  | pong _ hr hopcode =>
    have hintake := h.intake hr hub.directory
    rw [Frame.reply?_of_pong hopcode] at hintake
    exact .serving hintake ⟨hs.output_eq, hs.whole⟩
  | @close _ frame rest _ hr hopcode =>
    have hintake := (h.intake hr hub.directory).allows
    rw [Frame.reply?_of_close hopcode] at hintake
    rw [← Frame.bytes_ofClose]
    exact reaches_closing (c := { c with inbox := rest, session := c.session.close })
      (hintake.reply (Frame.isEvent_ofClose _)) ⟨hs.output_eq, hs.whole⟩ hub
  | lag _ _ _ => exact nomatch hlag
  | skip hstage hother hr hown =>
    rw [after_silent]
    have hnext := h.receive ha (hsame hother) hstage hr
    rw [if_pos hown, List.append_nil] at hnext
    exact .serving hnext hs
  | tell hstage hother hr hown =>
    rw [after_silent]
    have hnext := h.receive ha (hsame hother) hstage hr
    rw [if_neg hown] at hnext
    exact reaches_message hnext hs hub
  | leaveEarly hstage => exact (hserving hstage).elim
  | loseEarly hstage => exact (hserving hstage).elim
  | leave _ =>
    rw [after_silent]
    exact reaches_ended (c := (Connection.finish hub c (.ok ())).2) h.allows hs rfl
  | @lose _ cause _ =>
    rw [after_silent]
    exact reaches_ended (c := (Connection.finish hub c (.error (.readFailed cause))).2) h.allows hs rfl
  | timeOut hstage => exact (hserving hstage).elim
  | timeOutAnswering hstage _ _ => exact (hserving hstage).elim
  | idle _ =>
    rw [after_silent]
    exact reaches_closing (c := { c with session := c.session.close }) h.allows.goingAway hs hub

/-- **Every move keeps it so**, as long as no notice is missed. -/
theorem Reaches.move {now : Nat} {occurrence : Connection.Occurrence} {next : Hub × Connection}
    (h : d.Reaches [] c) (ha : d.Attributed) (hlogs : d.Fed hub.directory c)
    (hm : Connection.Move now hub c occurrence next) (hlag : occurrence.missed? = none) :
    (d.after occurrence hub.directory none).Reaches [] next.2 := by
  cases h with
  | serving keeps sent =>
    obtain ⟨channel, hfeed, hkept⟩ := hlogs (by simp only [Connection.hasEnded, keeps.stage_eq])
    exact keeps.move sent ha hfeed hkept hm hlag
  | ended ended due_eq allows passes =>
    obtain ⟨hincoming, room, rfl⟩ := Connection.move_of_ended ended hm
    exact .ended ended due_eq (allows.after hincoming hub.directory none)
      ⟨passes.output_eq, passes.rest_eq, passes.rest_front⟩

/-- A request is taken in: its response is due. -/
theorem Reaches.begin (h : d.Reaches [] c) {receiver : Option Receiver} {text : List Char}
    {rest : Bytes} (hstage : c.stage = .serving receiver)
    (hr : Frame.readMasked c.config.maxMessageSize c.inbox = .frame frame rest)
    (hq : frame.request? = some text) (directory : Directory) :
    (d.after (.intake (.frame frame)) directory none).Reaches
      [.ofText (directory.handleText d.session (String.ofList text)).1.render]
      { c with inbox := rest } := by
  cases h with
  | serving keeps sent =>
    have hintake := keeps.intake hr directory
    rw [Frame.reply?_of_request hq] at hintake
    exact .serving hintake ⟨sent.output_eq, sent.whole⟩
  | ended ended _ _ _ => simp [Connection.hasEnded, hstage] at ended

/-! ## What it comes to -/

/-- **A delivery so far.**  A connection has sent its client these frames, with a reply that is due, and at
the end a close frame if the client was idle. -/
structure Accounts (d : Delivery) (hub : Hub) (due : List Frame) (c : Connection) (frames : List Frame)
    (last : Option Frame) (rest : Bytes) (idle : List Frame) : Prop where
  /-- The frames went through behind the head, and of a last one only a front. -/
  passes : d.Passes frames last rest c.outlet
  /-- They are the events and the replies that the client is to be sent, each kind in order. -/
  allows : d.Allows (frames ++ last.toList) due idle
  /-- Nothing is due when the connection has ended. -/
  at_end : c.hasEnded = true → due = []
  /-- Until then every frame went through as a whole. -/
  until_end : c.hasEnded = false → last = none ∧ idle = []
  /-- Where there is no notice to take, all events have been sent. -/
  all_events : c.hasEnded = false → c.takeNotice hub = none → frames.filter Frame.isEvent = d.events
  /-- Where there is nothing to work on, all that the client sent was taken in. -/
  all_incoming : c.hasEnded = false → ∀ now, c.advance now hub = none →
    d.receptions.map (·.incoming) = (Frame.readAll d.limit d.stream).incoming

/-- There is no notice to take only where the whole log was read. -/
theorem Keeps.read_eq (h : d.Keeps read frames due c) {channel : Channel Notice}
    (hfeed : hub.directory.feed = some channel) (hlogs : channel.Logs d.start (d.log.map Prod.snd))
    (ht : c.takeNotice hub = none) : read = d.log.length := by
  have hempty : (channel.receive ⟨d.start + read⟩).1 = .empty := by
    simp only [Connection.takeNotice, h.stage_eq, hfeed] at ht
    split at ht
    · next hr => rw [hr]
    · cases ht
    · split at ht <;> cases ht
  simpa using hlogs.of_empty (by simpa using h.read_le) hempty

theorem Reaches.accounts (h : d.Reaches due c) (hlogs : d.Fed hub.directory c) :
    ∃ frames last rest idle, d.Accounts hub due c frames last rest idle := by
  cases h with
  | @serving read frames keeps sent =>
    have hgoes : c.hasEnded = false := by simp only [Connection.hasEnded, keeps.stage_eq]
    obtain ⟨channel, hfeed, hkept⟩ := hlogs hgoes
    refine ⟨frames, none, [], [], sent.passes, ?_, ?_, fun _ => ⟨rfl, rfl⟩, ?_, ?_⟩
    · rw [Option.toList_none, List.append_nil]
      exact keeps.allows
    · intro hended
      rw [hgoes] at hended
      cases hended
    · intro _ ht
      rw [keeps.events_eq, keeps.read_eq hfeed hkept ht, List.take_length]
      rfl
    · intro _ now hadvance
      have hread := Connection.readMasked_of_advance keeps.stage_eq hadvance
      have hstream := keeps.stream_eq []
      rw [List.append_nil, List.append_nil, ← keeps.limit_eq, Frame.readAll_of_incomplete hread]
        at hstream
      rw [← keeps.limit_eq, hstream]
      exact (List.append_nil _).symm
  | @ended frames last rest idle ended due_eq allows passes =>
    subst due_eq
    have hnot : c.hasEnded ≠ false := by
      rw [ended]
      decide
    exact ⟨frames, last, rest, idle, passes, allows, fun _ => rfl, fun hgoes => (hnot hgoes).elim,
      fun hgoes => (hnot hgoes).elim, fun hgoes => (hnot hgoes).elim⟩

end Delivery

end ServiceDirectory
