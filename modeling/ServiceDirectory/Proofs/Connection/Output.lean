import ServiceDirectory.Network
import ServiceDirectory.Proofs.Connection.Steps
import ServiceDirectory.Proofs.Connection.Transmission

/-!
# What went through to a client

Whatever happens to the connections of a server, in whatever order, the bytes that went through to a
client are the front of a `Transmission`, and all of one as long as every write went through as a whole
(`output_run`).

The invariant says for each stage what has gone through: nothing before the upgrade, a head and messages
while the connection serves its client, and at the end anything that the grammar allows.  It needs one
more fact, which is about the hub: every notice that is kept is the text of a change.
-/

namespace ServiceDirectory

open WebSocket (CloseCode Frame Violation)
open Upgrade (Handshake Outcome)
open Transmission (IsOpen Message Closing)

/-! ## Writes that do not go through as a whole -/

/-- What went through is the front of a transmission, and all of it unless a write was cut short. -/
def Outlet.Faithful (outlet : Outlet) : Prop :=
  ∃ whole, Transmission whole ∧ outlet.output <+: whole ∧
    (outlet.cut = false → outlet.output = whole)

theorem Outlet.faithful_of_output {outlet : Outlet} (h : Transmission outlet.output) :
    outlet.Faithful :=
  ⟨_, h, List.prefix_refl _, fun _ => rfl⟩

/-- A write that completes a transmission, whether it goes through or not. -/
theorem Outlet.faithful_write {outlet : Outlet} {bytes : Bytes}
    (h : Transmission (outlet.output ++ bytes)) : (outlet.write bytes).2.Faithful := by
  cases hw : (outlet.write bytes).1 with
  | true =>
    refine faithful_of_output ?_
    rw [(write_of_true hw).1]
    exact h
  | false =>
    -- the front that went through is one of the transmission that was to be written
    obtain ⟨hfront, hcut⟩ := write_of_false hw
    exact ⟨_, h, hfront, fun hc => by rw [hcut] at hc; exact nomatch hc⟩

/-! ## The notices that are kept -/

/-- Every notice that is kept is the text of a change. -/
def Directory.TellsChanges (directory : Directory) : Prop :=
  ∀ channel ∈ directory.feed, ∀ notice ∈ channel.kept, ∃ change : Change,
    notice.payload = change.toJson.render

namespace Directory

variable {directory : Directory}

theorem TellsChanges.subscribe (h : directory.TellsChanges) :
    directory.subscribe.2.TellsChanges := by
  cases hf : directory.feed with
  | none => simpa [Directory.subscribe, hf] using h
  | some channel =>
    intro other ho
    simp only [Directory.subscribe, hf, Option.mem_some_iff] at ho
    subst ho
    exact h channel hf

theorem TellsChanges.unsubscribe (h : directory.TellsChanges) :
    directory.unsubscribe.TellsChanges := by
  intro other ho
  obtain ⟨channel, hf, rfl⟩ := Option.map_eq_some_iff.mp ho
  exact h channel hf

theorem TellsChanges.publish (h : directory.TellsChanges) (session : SessionId) (change : Change) :
    (directory.publish session change).2.TellsChanges := by
  cases hf : directory.feed with
  | none => simpa [Directory.publish, hf] using h
  | some channel =>
    intro other ho
    simp only [Directory.publish, hf, Option.mem_some_iff] at ho
    subst ho
    simp only [Channel.send]
    split
    · exact h channel hf
    · intro notice hn
      rcases List.mem_cons.mp (List.mem_of_mem_take hn) with rfl | hn
      · exact ⟨change, rfl⟩
      · exact h channel hf notice hn

theorem TellsChanges.handleText (h : directory.TellsChanges) (session : SessionId) (text : String) :
    (directory.handleText session text).2.TellsChanges := by
  rw [Directory.handleText, Directory.handle]
  generalize apply directory.policy directory.store _ = applied
  have happlied : TellsChanges { directory with store := applied.store } := h
  split
  · exact happlied
  · next change _ => exact happlied.publish session change

end Directory

theorem Channel.mem_kept_of_receive {channel : Channel α} {receiver next : Receiver} {message : α}
    (h : channel.receive receiver = (.message message, next)) : message ∈ channel.kept := by
  simp only [receive] at h
  split at h
  · simp at h
  · split at h
    · simp at h
    · split at h
      · next hk =>
        obtain rfl : _ = message := by simpa using congrArg Prod.fst h
        exact List.mem_of_getElem? hk
      · simp at h

namespace Connection

/-! ## The invariant -/

/-- What went through to the client fits the stage of the connection. -/
def Sound (c : Connection) : Prop :=
  match c.stage with
  | .handshaking _ => c.outlet.output = [] ∧ c.outlet.cut = false
  | .serving _ => IsOpen c.outlet.output ∧ c.outlet.cut = false
  | .ended _ => c.outlet.Faithful

/-- A connection and its hub after a step. -/
structure Sounds (next : Hub × Connection) : Prop where
  tells : next.1.directory.TellsChanges
  sound : next.2.Sound

variable {now : Nat} {hub : Hub} {c : Connection}

theorem Sound.faithful (h : c.Sound) : c.outlet.Faithful := by
  unfold Sound at h
  split at h
  · refine Outlet.faithful_of_output ?_
    rw [h.1]
    exact .nothing
  · exact Outlet.faithful_of_output (.opened h.1)
  · exact h

theorem Sounds.start {config : Config} {session : SessionId} (h : hub.directory.TellsChanges) :
    Sounds (start config session now hub) :=
  ⟨h, rfl, rfl⟩

/-! ## The ways to end -/

theorem tellsChanges_leave (h : hub.directory.TellsChanges) :
    (leave hub c).directory.TellsChanges := by
  unfold leave
  split
  · exact h.unsubscribe
  · exact h

theorem Sounds.finish (h : hub.directory.TellsChanges) (hc : c.outlet.Faithful)
    (result : Except Failure Unit) : Sounds (finish hub c result) :=
  ⟨tellsChanges_leave h, hc⟩

theorem Sounds.breakOff (h : hub.directory.TellsChanges) (hc : c.outlet.Faithful)
    (failure : Failure) : Sounds (breakOff hub c failure) :=
  ⟨tellsChanges_leave h, hc⟩

/-- **A write and what follows it.**  Where the write goes through, the rest goes on with its bytes
behind the others; where it does not, the connection has ended. -/
theorem Sounds.writeThen {bytes : Bytes} {next : Hub → Connection → Hub × Connection}
    (h : hub.directory.TellsChanges) (hwhole : Transmission (c.outlet.output ++ bytes))
    (hnext : ∀ c', c'.stage = c.stage → c'.outlet.output = c.outlet.output ++ bytes →
      c'.outlet.cut = c.outlet.cut → Sounds (next hub c')) :
    Sounds (writeThen hub c bytes next) := by
  cases hw : (c.outlet.write bytes).1 with
  | true =>
    obtain ⟨houtput, hcut⟩ := Outlet.write_of_true hw
    simp only [Connection.writeThen, Connection.write, hw]
    exact hnext _ rfl houtput hcut
  | false =>
    simp only [Connection.writeThen, Connection.write, hw]
    exact Sounds.finish h (Outlet.faithful_write hwhole) _

/-- A message behind the others. -/
theorem Sounds.message {receiver : Option Receiver} {message : Bytes}
    (h : hub.directory.TellsChanges) (hs : c.stage = .serving receiver)
    (ho : IsOpen c.outlet.output) (hc : c.outlet.cut = false) (hm : Message message) :
    Sounds (Connection.writeThen hub c message stay) := by
  apply Sounds.writeThen h (.opened (ho.append hm))
  intro c' hs' ho' hc'
  refine ⟨h, ?_⟩
  simp only [Sound, stay, hs'.trans hs]
  show IsOpen c'.outlet.output ∧ c'.outlet.cut = false
  rw [ho']
  exact ⟨ho.append hm, hc'.trans hc⟩

/-- A close frame behind the messages, after which the connection has ended. -/
theorem Sounds.closing {closing : Bytes} (h : hub.directory.TellsChanges)
    (ho : IsOpen c.outlet.output) (hm : Closing closing) (result : Except Failure Unit) :
    Sounds (Connection.writeThen hub c closing fun hub c => Connection.finish hub c result) := by
  apply Sounds.writeThen h (.closed ho hm)
  intro c' _ ho' _
  refine Sounds.finish h (Outlet.faithful_of_output ?_) result
  rw [ho']
  exact .closed ho hm

theorem Sounds.fail (h : hub.directory.TellsChanges) (ho : IsOpen c.outlet.output)
    (cause : Violation) : Sounds (fail hub c cause) := by
  refine Sounds.finish h (Outlet.faithful_write (.closed ho ?_)) _
  refine Transmission.closing_writeClose ?_
  intro code hcode
  obtain rfl := Option.some.inj hcode
  exact cause.maySend_closeCode

/-! ## Pieces of work -/

theorem Sounds.conclude {limit : Nat} {received rest : Bytes} {outcome : Outcome}
    (h : hub.directory.TellsChanges) (ho : c.outlet.output = []) (hc : c.outlet.cut = false)
    (houtcome : Handshake.outcome? limit received = some (outcome, rest)) :
    Sounds (conclude now hub c outcome) := by
  have hwhole : Transmission (c.outlet.output ++ outcome.response) := by
    rw [ho, List.nil_append]
    exact Transmission.response_of_outcome? houtcome
  refine Sounds.writeThen h hwhole ?_
  intro c' _ ho' hc'
  cases outcome with
  | refused cause =>
    have htells : Directory.TellsChanges
        ({ hub with metrics := hub.metrics.handshakeRejected } : Hub).directory := h
    refine Sounds.finish htells (Outlet.faithful_of_output ?_) _
    rw [ho']
    exact hwhole
  | accepted value =>
    refine ⟨h.subscribe, ?_, hc'.trans hc⟩
    show IsOpen c'.outlet.output
    rw [ho', ho, List.nil_append]
    exact Transmission.isOpen_of_outcome? houtcome

theorem Sounds.answer {receiver : Option Receiver} (h : hub.directory.TellsChanges)
    (hs : c.stage = .serving receiver) (ho : IsOpen c.outlet.output) (hc : c.outlet.cut = false)
    (text : List Char) : Sounds (answer hub c text) := by
  have htells := h.handleText c.session.id (String.ofList text)
  unfold Connection.answer
  apply Sounds.message (c := { c with session := c.session.addMessage }) htells hs ho hc
  apply Transmission.message_of_report
  apply Transmission.isReport_response

theorem Sounds.answerFrame {receiver : Option Receiver} {frame : Frame}
    (h : hub.directory.TellsChanges) (hs : c.stage = .serving receiver)
    (ho : IsOpen c.outlet.output) (hc : c.outlet.cut = false) (hf : frame.Sound) :
    Sounds (answerFrame hub c frame) := by
  obtain ⟨final, opcode, payload⟩ := frame
  cases opcode with
  | continuation => exact Sounds.fail h ho .fragmented
  | binary => exact Sounds.fail h ho (.unsupported .binary)
  | ping => exact Sounds.message h hs ho hc (Transmission.message_pong (hf.short rfl))
  | pong =>
    refine ⟨h, ?_⟩
    show c.Sound
    simp only [Sound, hs]
    exact ⟨ho, hc⟩
  | close =>
    exact Sounds.closing (c := { c with session := c.session.close }) h ho
      (Transmission.closing_writeClose hf.maySend) (.ok ())
  | text =>
    cases final with
    | false => exact Sounds.fail h ho .fragmented
    | true =>
      cases hd : Utf8.decode? payload with
      | none =>
        simp only [Connection.answerFrame, hd, if_true]
        exact Sounds.fail h ho .invalidUtf8
      | some text =>
        simp only [Connection.answerFrame, hd, if_true]
        exact Sounds.answer h hs ho hc text

theorem Sounds.advance (h : hub.directory.TellsChanges) (hc : c.Sound)
    {next : Hub × Connection} (hn : c.advance now hub = some next) : Sounds next := by
  cases work_of_advance hn with
  | conclude hs _ ho =>
    simp only [Sound, hs] at hc
    exact Sounds.conclude h hc.1 hc.2 ho
  | breakOff hs _ => exact Sounds.breakOff h hc.faithful _
  | @fail _ cause rest hs _ =>
    simp only [Sound, hs] at hc
    exact Sounds.fail (c := { c with inbox := rest }) h hc.1 cause
  | @answerFrame _ frame rest hs hr =>
    simp only [Sound, hs] at hc
    exact Sounds.answerFrame (c := { c with inbox := rest }) h hs hc.1 hc.2
      (Frame.sound_of_readMasked hr)

/-! ## What happens to a connection -/

theorem Sound.receive (h : c.Sound) (bytes : Bytes) : (c.receive now bytes).Sound := by
  rw [Connection.receive]
  split
  · exact h
  · split
    · exact h
    · next hs => simpa only [Sound, hs] using h
    · next hs => simpa only [Sound, hs] using h

theorem Sound.breakOutlet (h : c.Sound) : c.breakOutlet.Sound := h

theorem Sound.limitOutlet (h : c.Sound) (room : Nat) : (c.limitOutlet room).Sound := h

theorem Sounds.endInput (h : hub.directory.TellsChanges) (hc : c.Sound) :
    Sounds (c.endInput hub) := by
  rw [Connection.endInput]
  split
  · exact ⟨h, hc⟩
  · exact Sounds.finish h hc.faithful _
  · exact Sounds.finish h hc.faithful _

theorem Sounds.failInput (h : hub.directory.TellsChanges) (hc : c.Sound) (cause : String) :
    Sounds (c.failInput hub cause) := by
  rw [Connection.failInput]
  split
  · exact ⟨h, hc⟩
  · exact Sounds.finish h hc.faithful _

theorem Sounds.suspend (h : hub.directory.TellsChanges) (hc : c.Sound) : Sounds (c.suspend hub) := by
  rw [Connection.suspend.eq_def]
  split
  · split
    · split
      · exact Sounds.breakOff h hc.faithful _
      · exact ⟨h, hc⟩
    · exact ⟨h, hc⟩
  · exact ⟨h, hc⟩

theorem Sounds.takeNotice (h : hub.directory.TellsChanges) (hc : c.Sound)
    {next : Hub × Connection} (hn : c.takeNotice hub = some next) : Sounds next := by
  simp only [Connection.takeNotice] at hn
  split at hn
  · next receiver channel hs hf =>
    simp only [Sound, hs] at hc
    split at hn
    · simp at hn
    · obtain rfl := Option.some.inj hn
      exact ⟨h, hc⟩
    · next notice receiver' hr =>
      split at hn
      · obtain rfl := Option.some.inj hn
        exact ⟨h, hc⟩
      · obtain rfl := Option.some.inj hn
        -- a notice that is received was kept, so it is the text of a change
        obtain ⟨change, hchange⟩ := h channel hf notice (Channel.mem_kept_of_receive hr)
        rw [hchange]
        exact Sounds.message (c := { c with stage := .serving (some receiver') }) h rfl hc.1 hc.2
          (Transmission.message_of_report (Transmission.isReport_change change))
  · simp at hn

/-- The answer to the upgrade request, cut short where the time for it is over. -/
theorem Sounds.expireAnswering (h : hub.directory.TellsChanges) (hc : c.Sound) (room : Nat) :
    Sounds (c.expireAnswering hub room) := by
  have hsame : Sounds (hub, c) := ⟨h, hc⟩
  rw [Connection.expireAnswering]
  split
  · next handshake hs =>
    simp only [Sound, hs] at hc
    split
    · exact hsame
    · next outcome after rest hp =>
      have hwhole : Transmission ((c.outlet.limited room).output ++ outcome.response) := by
        show Transmission (c.outlet.output ++ outcome.response)
        rw [hc.1, List.nil_append]
        exact Transmission.response_of_outcome? (Handshake.outcome?_of_process hp)
      have hfaithful := Outlet.faithful_write hwhole
      split
      -- an answer that goes through as a whole is left to `Sounds.conclude`
      · exact hsame
      · next hw =>
        rw [hw] at hfaithful
        exact Sounds.finish h hfaithful _
  · exact hsame

theorem Sounds.expire (h : hub.directory.TellsChanges) (hc : c.Sound) : Sounds (c.expire hub) := by
  rw [Connection.expire]
  split
  · exact ⟨h, hc⟩
  · exact Sounds.finish h hc.faithful _
  · next hs =>
    simp only [Sound, hs] at hc
    refine Sounds.closing (c := { c with session := c.session.close }) h hc.1 ?_ (.ok ())
    refine Transmission.closing_writeClose ?_
    intro code hcode
    obtain rfl := Option.some.inj hcode
    decide

end Connection

/-! ## Whole runs -/

namespace Network

/-- All connections are sound, and the hub keeps texts of changes only. -/
structure Sound (n : Network) : Prop where
  tells : n.hub.directory.TellsChanges
  sound : ∀ c ∈ n.connections, c.Sound

variable {n : Network}

theorem sound_start (config : Config) (store : Store) : (start config store).Sound := by
  refine ⟨?_, fun c hc => (List.not_mem_nil hc).elim⟩
  show (directoryOf config store).TellsChanges
  intro channel hf notice hn
  unfold directoryOf at hf
  split at hf
  · obtain rfl : _ = channel := Option.some.inj hf
    exact nomatch hn
  · exact nomatch hf

/-- A step of one connection leaves the others as they are. -/
theorem Sound.update (h : n.Sound) (conn : Nat) {f : Hub → Connection → Hub × Connection}
    (hf : ∀ c, c.Sound → Connection.Sounds (f n.hub c)) : (n.update conn f).Sound := by
  cases hc : n.connections[conn]? with
  | none => simpa only [Network.update, hc] using h
  | some c =>
    obtain ⟨htells, hsound⟩ := hf c (h.sound c (List.mem_of_getElem? hc))
    simp only [Network.update, hc]
    refine ⟨htells, ?_⟩
    intro other ho
    -- the other connections share nothing with it but the hub
    rcases List.mem_or_eq_of_mem_set ho with ho | rfl
    · exact h.sound other ho
    · exact hsound

theorem sounds_whenDue {now : Nat} {hub : Hub} {c : Connection}
    {f : Hub → Connection → Hub × Connection} (h : hub.directory.TellsChanges) (hc : c.Sound)
    (hf : Connection.Sounds (f hub c)) : Connection.Sounds (whenDue now f hub c) := by
  simp only [whenDue]
  split
  · split
    · exact hf
    · exact ⟨h, hc⟩
  · exact ⟨h, hc⟩

/-- **The step**: every action keeps the connections sound. -/
theorem Sound.act (h : n.Sound) (action : Action) : (n.act action).Sound := by
  cases action with
  | connect session =>
    refine ⟨h.tells, ?_⟩
    intro c hc
    rcases List.mem_append.mp hc with hc | hc
    · exact h.sound c hc
    · obtain rfl := List.mem_singleton.mp hc
      have hstart : Connection.Sounds (Connection.start n.config session n.now n.hub) :=
        .start h.tells
      exact hstart.sound
  | receive conn bytes =>
    show (n.update conn fun hub c => (hub, c.receive n.now bytes)).Sound
    apply h.update
    intro c hc
    exact ⟨h.tells, hc.receive bytes⟩
  | endInput conn =>
    show (n.update conn fun hub c => c.endInput hub).Sound
    apply h.update
    intro c hc
    exact .endInput h.tells hc
  | failInput conn cause =>
    show (n.update conn fun hub c => c.failInput hub cause).Sound
    apply h.update
    intro c hc
    exact .failInput h.tells hc cause
  | breakOutlet conn =>
    show (n.update conn fun hub c => (hub, c.breakOutlet)).Sound
    apply h.update
    intro c hc
    exact ⟨h.tells, hc.breakOutlet⟩
  | limitOutlet conn room =>
    show (n.update conn fun hub c => (hub, c.limitOutlet room)).Sound
    apply h.update
    intro c hc
    exact ⟨h.tells, hc.limitOutlet room⟩
  | advance conn =>
    show (n.update conn fun hub c => (c.advance n.now hub).getD (hub, c)).Sound
    apply h.update
    intro c hc
    cases hn : c.advance n.now n.hub with
    | none => exact ⟨h.tells, hc⟩
    | some next => exact .advance h.tells hc hn
  | suspend conn =>
    show (n.update conn fun hub c => c.suspend hub).Sound
    apply h.update
    intro c hc
    exact .suspend h.tells hc
  | takeNotice conn =>
    show (n.update conn fun hub c => (c.takeNotice hub).getD (hub, c)).Sound
    apply h.update
    intro c hc
    cases hn : c.takeNotice n.hub with
    | none => exact ⟨h.tells, hc⟩
    | some next => exact .takeNotice h.tells hc hn
  | expire conn =>
    show (n.update conn (whenDue n.now Connection.expire)).Sound
    apply h.update
    intro c hc
    exact sounds_whenDue h.tells hc (.expire h.tells hc)
  | expireAnswering conn room =>
    show (n.update conn (whenDue n.now fun hub c => c.expireAnswering hub room)).Sound
    apply h.update
    intro c hc
    exact sounds_whenDue h.tells hc (.expireAnswering h.tells hc room)
  | pass milliseconds => exact ⟨h.tells, h.sound⟩

/-- **The run**: so they are after any actions. -/
theorem Sound.run (h : n.Sound) (actions : List Action) : (n.run actions).Sound := by
  induction actions generalizing n with
  | nil => exact h
  | cons action actions ih => exact ih (h.act action)

end Network

/-- **Whatever happens, a client is sent a transmission.**  In every run of a server, whatever its
settings and its table, whatever the clients send and in whatever order connections work, notices are
passed on, inputs end, deadlines pass and clients go away: the bytes that went through to a client are
the front of a transmission, and all of it unless a write was cut short. -/
theorem output_run (config : Config) (store : Store) (actions : List Action) (c : Connection)
    (hc : c ∈ ((Network.start config store).run actions).connections) :
    ∃ whole, Transmission whole ∧ c.outlet.output <+: whole ∧
      (c.outlet.cut = false → c.outlet.output = whole) :=
  (((Network.sound_start config store).run actions).sound c hc).faithful

/-- A refusal that is cut short: the client takes ten bytes of it. -/
theorem output_of_short_refusal :
    let n := (Network.start {}).run
      [.connect 1, .receive 0 [88, 13, 10, 13, 10], .limitOutlet 0 10, .advance 0]
    ∃ c ∈ n.connections, c.outlet.output = Transmission.refusal.take 10 ∧ c.outlet.cut = true ∧
      ∃ whole, Transmission whole ∧ c.outlet.output <+: whole ∧
        (c.outlet.cut = false → c.outlet.output = whole) := by
  intro n
  have houtputs : n.connections.map (fun c => (c.outlet.output, c.outlet.cut)) =
      [(Transmission.refusal.take 10, true)] := by decide +kernel
  obtain ⟨c, hc, heq⟩ : ∃ c ∈ n.connections,
      (c.outlet.output, c.outlet.cut) = (Transmission.refusal.take 10, true) :=
    List.mem_map.mp (by rw [houtputs]; exact List.mem_singleton.mpr rfl)
  obtain ⟨houtput, hcut⟩ := Prod.mk.inj heq
  exact ⟨c, hc, houtput, hcut, output_run {} .empty _ c hc⟩

end ServiceDirectory
