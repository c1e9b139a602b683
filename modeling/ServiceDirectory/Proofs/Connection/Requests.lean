import ServiceDirectory.Proofs.Connection.Output
import ServiceDirectory.Proofs.Connection.Phases
import ServiceDirectory.Proofs.Connection.Replies

/-!
# Requests and their responses

A connection that serves its client takes the requests out of the client's bytes in order, hands each to
the directory and sends the response.  `Connection.Conducts` says of a connection which requests it has
handed over, and which of their responses went through: all, but for one that is still due, or one that
was cut short where the client was gone, and then the connection has ended.

What else is sent, pongs, events and close frames, is not a response (`Frame.isResponse`), so whether it
goes through does not matter.
-/

namespace ServiceDirectory

open WebSocket (CloseCode Frame Incoming Violation)
open Upgrade (Handshake)

namespace WebSocket.Frame

/-- The frame is a response: its text is an object that tells whether there was success. -/
def isResponse (frame : Frame) : Bool :=
  match frame.names? with
  | some names => names.contains "success"
  | none => false

theorem isResponse_of_response (response : Response) : (ofText response.render).isResponse = true := by
  have hread := response.parse?_render
  rw [isResponse, names?_ofText hread]
  cases response.list <;> simp

theorem isResponse_of_change (change : Change) : (ofText change.toJson.render).isResponse = false := by
  have hread := change.parse?_render
  cases change <;> (rw [isResponse, names?_ofText hread]; simp)

theorem isResponse_of_opcode {frame : Frame} (h : frame.opcode ≠ .text) : frame.isResponse = false := by
  obtain ⟨final, opcode, payload⟩ := frame
  cases opcode with
  | text => exact (h rfl).elim
  | _ => rfl

theorem isResponse_ofClose (code : Option CloseCode) : (ofClose code).isResponse = false :=
  isResponse_of_opcode fun h => nomatch h

/-! ## The requests among the bytes of a client -/

theorem request?_of_opcode {frame : Frame} (h : frame.opcode ≠ .text) : frame.request? = none :=
  if_neg fun hcond => h hcond.1

theorem request?_of_fault {frame : Frame} {cause : Violation} (h : frame.fault? = some cause) :
    frame.request? = none := by
  by_cases htext : frame.opcode = .text
  · by_cases hfinal : frame.final = true
    · rw [request?, if_pos ⟨htext, hfinal⟩]
      simp only [fault?, htext, hfinal, if_true] at h
      split at h
      · next hnone => exact Option.isNone_iff_eq_none.mp hnone
      · cases h
    · exact if_neg fun hcond => hfinal hcond.2
  · exact request?_of_opcode htext

/-- The texts of the requests among the frames that were read. -/
def Batch.requests (batch : Batch) : List (List Char) := batch.frames.filterMap request?

/-- The requests in the bytes behind a frame that was read. -/
theorem requests_readAll_of_frame {limit : UInt64} {received rest : Bytes} {frame : Frame}
    (h : readMasked limit received = .frame frame rest) (more : Bytes) :
    (readAll limit (received ++ more)).requests =
      frame.request?.toList ++ (readAll limit (rest ++ more)).requests := by
  have hread : readMasked limit (received ++ more) = .frame frame (rest ++ more) := by
    rw [readMasked_append_of_incoming more (by rw [h]; rfl), h]
    rfl
  rw [readAll_of_frame hread]
  unfold Batch.requests
  cases hq : frame.request? with
  | none => rw [List.filterMap_cons_none hq, Option.toList_none, List.nil_append]
  | some text => rw [List.filterMap_cons_some hq, Option.toList_some, List.singleton_append]

end WebSocket.Frame

/-! ## Requests that were handed over -/

/-- A request that was handed to the directory, and the response that it came to. -/
structure Handover where
  text : List Char
  response : Response

/-- The frame of the response. -/
def Handover.frame (handover : Handover) : Frame := .ofText handover.response.render

namespace Connection

/-- The text of the request that is taken in, if it is one. -/
def Occurrence.request? : Occurrence → Option (List Char)
  | intake (.frame frame) => frame.request?
  | _ => none

/-- A connection goes on: it has taken these requests out of the stream of its client, and the other bytes
are in the inbox; these frames went through behind the head; and the responses among them are those to the
requests, in order, but for one that is due. -/
structure Goes (limit : UInt64) (stream head : Bytes) (handed : List Handover) (due frames : List Frame)
    (c : Connection) : Prop where
  limit_eq : c.config.maxMessageSize = limit
  requests_eq : ∀ more, (Frame.readAll limit (stream ++ more)).requests =
    handed.map (·.text) ++ (Frame.readAll limit (c.inbox ++ more)).requests
  output_eq : c.outlet.output = head ++ frames.flatMap Frame.bytes
  responses_eq : frames.filter Frame.isResponse ++ due = handed.map (·.frame)

/-- A connection has ended: it has handed these requests over, and what went through behind the head are
frames, and a front of a last one.  A response was cut short only where the client was gone. -/
structure Stops (limit : UInt64) (stream head : Bytes) (handed : List Handover) (frames : List Frame)
    (last : Option Frame) (front : Bytes) (c : Connection) : Prop where
  ended : c.hasEnded = true
  requests_prefix : ∀ more, handed.map (·.text) <+: (Frame.readAll limit (stream ++ more)).requests
  output_eq : c.outlet.output = head ++ frames.flatMap Frame.bytes ++ front
  front_of : ∀ frame ∈ last, front <+: frame.bytes ∧ front.length < frame.bytes.length
  front_eq : last = none → front = []
  responses_eq : (frames ++ last.toList).filter Frame.isResponse = handed.map (·.frame)
  broken : ∀ frame ∈ last, frame.isResponse = true → c.stage = .ended (.error .brokenPipe)

/-- What a connection that was opened has done with the requests of its client. -/
inductive Conducts (limit : UInt64) (stream head : Bytes) (handed : List Handover)
    (due : List Frame) (c : Connection) : Prop where
  | serving {receiver : Option Receiver} {frames : List Frame} (stage_eq : c.stage = .serving receiver)
      (goes : Goes limit stream head handed due frames c)
  | ended {frames : List Frame} {last : Option Frame} {front : Bytes} (due_eq : due = [])
      (stops : Stops limit stream head handed frames last front c)

variable {now : Nat} {hub : Hub} {c c' : Connection} {limit : UInt64} {stream head rest : Bytes}
  {handed : List Handover} {due frames : List Frame} {frame : Frame} {receiver : Option Receiver}
  {occurrence : Occurrence} {next : Hub × Connection}

/-- No move takes a request in. -/
theorem request?_of_move (h : Move now hub c occurrence next) : occurrence.request? = none := by
  cases h with
  | fault _ _ hfault => exact Frame.request?_of_fault hfault
  | ping _ _ hopcode => exact Frame.request?_of_opcode fun heq => nomatch hopcode.symm.trans heq
  | pong _ _ hopcode => exact Frame.request?_of_opcode fun heq => nomatch hopcode.symm.trans heq
  | close _ _ hopcode => exact Frame.request?_of_opcode fun heq => nomatch hopcode.symm.trans heq
  | _ => rfl

/-! ## A connection that goes on -/

theorem Goes.requests_front (h : Goes limit stream head handed due frames c) (more : Bytes) :
    handed.map (·.text) <+: (Frame.readAll limit (stream ++ more)).requests := by
  rw [h.requests_eq]
  exact List.prefix_append _ _

/-- What counts for `Goes`. -/
theorem Goes.of_eq (h : Goes limit stream head handed due frames c) (hconfig : c'.config = c.config)
    (hinbox : c'.inbox = c.inbox) (houtput : c'.outlet.output = c.outlet.output) :
    Goes limit stream head handed due frames c' where
  limit_eq := hconfig ▸ h.limit_eq
  requests_eq := hinbox ▸ h.requests_eq
  output_eq := houtput.trans h.output_eq
  responses_eq := h.responses_eq

/-- More bytes arrive. -/
theorem Goes.arrive (h : Goes limit stream head handed due frames c) {bytes : Bytes}
    (hconfig : c'.config = c.config) (hinbox : c'.inbox = c.inbox ++ bytes)
    (houtput : c'.outlet.output = c.outlet.output) :
    Goes limit (stream ++ bytes) head handed due frames c' where
  limit_eq := hconfig ▸ h.limit_eq
  requests_eq := by
    intro more
    rw [hinbox, List.append_assoc, List.append_assoc]
    exact h.requests_eq _
  output_eq := houtput.trans h.output_eq
  responses_eq := h.responses_eq

/-- A frame that is not a request is taken in. -/
theorem Goes.intake (h : Goes limit stream head handed due frames c)
    (hr : Frame.readMasked c.config.maxMessageSize c.inbox = .frame frame rest)
    (hq : frame.request? = none) : Goes limit stream head handed due frames { c with inbox := rest } where
  limit_eq := h.limit_eq
  requests_eq := by
    intro more
    rw [h.limit_eq] at hr
    rw [h.requests_eq, Frame.requests_readAll_of_frame hr, hq, Option.toList_none, List.nil_append]
  output_eq := h.output_eq
  responses_eq := h.responses_eq

/-- A request is taken in and handed over: its response is due. -/
theorem Goes.begin (h : Goes limit stream head handed [] frames c)
    (hr : Frame.readMasked c.config.maxMessageSize c.inbox = .frame frame rest) {handover : Handover}
    (hq : frame.request? = some handover.text) :
    Goes limit stream head (handed ++ [handover]) [handover.frame] frames { c with inbox := rest } where
  limit_eq := h.limit_eq
  requests_eq := by
    intro more
    rw [h.limit_eq] at hr
    rw [h.requests_eq, Frame.requests_readAll_of_frame hr, hq, List.map_append, List.append_assoc]
    rfl
  output_eq := h.output_eq
  responses_eq := by
    rw [List.map_append, ← h.responses_eq, List.append_nil]
    rfl

/-- Another frame went through, which is the response that was due if it is one. -/
theorem Goes.send (h : Goes limit stream head handed ([frame].filter Frame.isResponse) frames c)
    (hconfig : c'.config = c.config) (hinbox : c'.inbox = c.inbox)
    (houtput : c'.outlet.output = c.outlet.output ++ frame.bytes) :
    Goes limit stream head handed [] (frames ++ [frame]) c' where
  limit_eq := hconfig ▸ h.limit_eq
  requests_eq := hinbox ▸ h.requests_eq
  output_eq := by simp [houtput, h.output_eq]
  responses_eq := by
    rw [List.filter_append, List.append_nil]
    exact h.responses_eq

/-! ## A connection that ends -/

/-- A connection ends between two frames. -/
theorem Goes.stop (h : Goes limit stream head handed [] frames c) (hended : c'.hasEnded = true)
    (houtput : c'.outlet.output = c.outlet.output) :
    Stops limit stream head handed frames none [] c' where
  ended := hended
  requests_prefix := h.requests_front
  output_eq := by rw [houtput, h.output_eq, List.append_nil]
  front_of := nofun
  front_eq := fun _ => rfl
  responses_eq := by
    rw [Option.toList_none, List.append_nil, ← h.responses_eq, List.append_nil]
  broken := nofun

/-- A connection ends in the middle of a frame. -/
theorem Goes.stop_short (h : Goes limit stream head handed ([frame].filter Frame.isResponse) frames c)
    {front : Bytes} (hfront : front <+: frame.bytes) (hlength : front.length < frame.bytes.length)
    (hended : c'.hasEnded = true) (houtput : c'.outlet.output = c.outlet.output ++ front)
    (hbroken : frame.isResponse = true → c'.stage = .ended (.error .brokenPipe)) :
    Stops limit stream head handed frames (some frame) front c' where
  ended := hended
  requests_prefix := h.requests_front
  output_eq := by rw [houtput, h.output_eq]
  front_of := by
    intro last hlast
    obtain rfl := Option.some.inj hlast
    exact ⟨hfront, hlength⟩
  front_eq := nofun
  responses_eq := by
    rw [List.filter_append]
    exact h.responses_eq
  broken := by
    intro last hlast
    obtain rfl := Option.some.inj hlast
    exact hbroken

/-- A frame that is no response, when nothing is due. -/
theorem Goes.unasked (h : Goes limit stream head handed [] frames c) (hframe : frame.isResponse = false) :
    Goes limit stream head handed ([frame].filter Frame.isResponse) frames c := by
  have hnone : [frame].filter Frame.isResponse = [] := List.filter_cons_of_neg (by simp [hframe])
  rw [hnone]
  exact h

/-- A connection sends a frame and goes on. -/
theorem conducts_message (h : Goes limit stream head handed ([frame].filter Frame.isResponse) frames c)
    (hs : c.stage = .serving receiver) (hub : Hub) :
    Conducts limit stream head handed [] (writeThen hub c frame.bytes stay).2 := by
  apply writeThen_cases (P := fun next => Conducts limit stream head handed [] next.2)
  · intro outlet houtput _
    exact .serving hs (h.send rfl rfl houtput)
  · intro outlet front hfront hlength houtput _
    exact .ended rfl (h.stop_short hfront hlength rfl houtput fun _ => rfl)

/-- A connection sends its last frame. -/
theorem conducts_closing (h : Goes limit stream head handed [] frames c) (ho : c'.outlet = c.outlet)
    (hframe : frame.isResponse = false) (hub : Hub) :
    Conducts limit stream head handed []
      (writeThen hub c' frame.bytes fun hub c => finish hub c (.ok ())).2 := by
  have hdue := h.unasked hframe
  apply writeThen_cases (P := fun next => Conducts limit stream head handed [] next.2)
  · intro outlet houtput _
    rw [ho] at houtput
    have hsent : Goes limit stream head handed [] (frames ++ [frame]) { c with outlet } :=
      hdue.send rfl rfl houtput
    exact .ended rfl (hsent.stop rfl rfl)
  · intro outlet front hfront hlength houtput _
    rw [ho] at houtput
    exact .ended rfl (hdue.stop_short hfront hlength rfl houtput fun _ => rfl)

/-- A connection ends with the close frame that says which rule was broken. -/
theorem conducts_fail (h : Goes limit stream head handed [] frames c) (ho : c'.outlet = c.outlet)
    (cause : Violation) (hub : Hub) : Conducts limit stream head handed [] (fail hub c' cause).2 := by
  have hframe := Frame.isResponse_ofClose (some cause.closeCode)
  have hdue := h.unasked hframe
  cases hw : (c'.outlet.write (Frame.writeClose (some cause.closeCode))).1 with
  | true =>
    obtain ⟨houtput, -⟩ := Outlet.write_of_true hw
    have hsent : Goes limit stream head handed [] (frames ++ [.ofClose (some cause.closeCode)])
        { c with outlet := (c'.outlet.write (Frame.writeClose (some cause.closeCode))).2 } :=
      hdue.send rfl rfl (ho ▸ houtput)
    exact .ended rfl (hsent.stop rfl rfl)
  | false =>
    obtain ⟨front, hfront, hlength, houtput, -⟩ := Outlet.front_of_write hw
    refine .ended rfl (hdue.stop_short hfront hlength rfl (ho ▸ houtput) fun hresponse => ?_)
    exact nomatch hframe.symm.trans hresponse

/-! ## Every step keeps it so -/

theorem Stops.arrive {last : Option Frame} {front : Bytes}
    (h : Stops limit stream head handed frames last front c) (bytes : Bytes) :
    Stops limit (stream ++ bytes) head handed frames last front c where
  ended := h.ended
  requests_prefix := by
    intro more
    rw [List.append_assoc]
    exact h.requests_prefix _
  output_eq := h.output_eq
  front_of := h.front_of
  front_eq := h.front_eq
  responses_eq := h.responses_eq
  broken := h.broken

/-- More bytes arrive. -/
theorem Conducts.receive (h : Conducts limit stream head handed due c) (now : Nat) (bytes : Bytes) :
    Conducts limit (stream ++ bytes) head handed due (c.receive now bytes) := by
  cases h with
  | @serving receiver frames stage_eq goes =>
    have hcontinues := continues_receive now c bytes
    have houtput : (c.receive now bytes).outlet.output = c.outlet.output := by rw [outlet_receive]
    have hstage := (stage_receive now c bytes).trans stage_eq
    exact .serving hstage (goes.arrive hcontinues.config_eq (inbox_receive stage_eq now bytes) houtput)
  | ended due_eq stops =>
    rw [receive_of_ended stops.ended]
    exact .ended due_eq (stops.arrive bytes)

/-- Fewer bytes will go through. -/
theorem Conducts.narrow (h : Conducts limit stream head handed due c) (room : Option Nat) :
    Conducts limit stream head handed due { c with outlet := { c.outlet with room } } := by
  cases h with
  | serving stage_eq goes => exact .serving stage_eq (goes.of_eq rfl rfl rfl)
  | ended due_eq stops =>
    exact .ended due_eq ⟨stops.ended, stops.requests_prefix, stops.output_eq, stops.front_of,
      stops.front_eq, stops.responses_eq, stops.broken⟩

/-- The moves of a connection that serves its client. -/
theorem Goes.move (h : Goes limit stream head handed [] frames c) (hs : c.stage = .serving receiver)
    (htells : hub.directory.TellsChanges) (hm : Move now hub c occurrence next) :
    Conducts limit (stream ++ occurrence.bytes) head handed [] next.2 := by
  have hserving : ∀ {handshake : Handshake}, c.stage ≠ .handshaking handshake :=
    fun hstage => nomatch hstage.symm.trans hs
  have hquiet : ∀ {c' : Connection}, Conducts limit stream head handed [] c' →
      Conducts limit (stream ++ []) head handed [] c' := by
    intro c' h
    rwa [List.append_nil]
  -- what is sent is a pong, an event or a close frame, and none of these is a response
  cases hm with
  | receive bytes => exact (Conducts.serving hs h).receive now bytes
  | rest => exact hquiet (.serving hs h)
  | limit room => exact hquiet ((Conducts.serving hs h).narrow room)
  | breakOff _ _ => exact hquiet (.ended rfl (h.stop rfl rfl))
  | violation _ _ => exact hquiet (conducts_fail h (by rfl) _ hub)
  | fault _ _ _ => exact hquiet (conducts_fail h (by rfl) _ hub)
  | @ping _ frame rest _ hr hopcode =>
    have hnone : frame.request? = none :=
      Frame.request?_of_opcode fun heq => nomatch hopcode.symm.trans heq
    have hpong : frame.pongOf.isResponse = false :=
      Frame.isResponse_of_opcode fun heq => nomatch heq
    exact hquiet (conducts_message (c := { c with inbox := rest })
      ((h.intake hr hnone).unasked hpong) hs hub)
  | @pong _ frame rest _ hr hopcode =>
    have hnone : frame.request? = none :=
      Frame.request?_of_opcode fun heq => nomatch hopcode.symm.trans heq
    exact hquiet (.serving hs (h.intake hr hnone))
  | close _ _ _ =>
    rw [← Frame.bytes_ofClose]
    exact hquiet (conducts_closing h (by rfl) (Frame.isResponse_ofClose _) hub)
  | lag _ _ _ => exact hquiet (.serving rfl (h.of_eq rfl rfl rfl))
  | skip _ _ _ _ => exact hquiet (.serving rfl (h.of_eq rfl rfl rfl))
  | @tell _ next channel notice _ hfeed hr _ =>
    obtain ⟨change, hchange⟩ := htells channel hfeed notice (Channel.mem_kept_of_receive hr)
    have hevent : (Frame.ofText notice.payload).isResponse = false := by
      rw [hchange]
      exact Frame.isResponse_of_change change
    have hnext : Goes limit stream head handed [] frames { c with stage := .serving (some next) } :=
      h.of_eq rfl rfl rfl
    exact hquiet (conducts_message (hnext.unasked hevent) rfl hub)
  | leave _ => exact hquiet (.ended rfl (h.stop rfl rfl))
  | lose _ => exact hquiet (.ended rfl (h.stop rfl rfl))
  | idle _ =>
    have hclose := Frame.isResponse_ofClose (some .goingAway)
    exact hquiet (conducts_closing h (by rfl) hclose hub)
  | conclude hstage _ => exact (hserving hstage).elim
  | leaveEarly hstage => exact (hserving hstage).elim
  | loseEarly hstage => exact (hserving hstage).elim
  | timeOut hstage => exact (hserving hstage).elim
  | timeOutAnswering hstage _ _ => exact (hserving hstage).elim

/-- **Every move keeps it so.** -/
theorem Conducts.move (h : Conducts limit stream head handed [] c)
    (htells : hub.directory.TellsChanges) (hm : Move now hub c occurrence next) :
    Conducts limit (stream ++ occurrence.bytes) head handed [] next.2 := by
  cases h with
  | serving stage_eq goes => exact goes.move stage_eq htells hm
  | ended _ stops =>
    obtain ⟨-, room, rfl⟩ := move_of_ended stops.ended hm
    exact Conducts.narrow (.ended rfl (stops.arrive occurrence.bytes)) room

/-- A request is handed over: its response is due. -/
theorem Conducts.begin (h : Conducts limit stream head handed [] c) {handover : Handover}
    (hq : c.request? = some (handover.text, rest)) :
    Conducts limit stream head (handed ++ [handover]) [handover.frame] { c with inbox := rest } := by
  obtain ⟨receiver, frame, hs, hr, htext, -⟩ := advance_of_request hq
  cases h with
  | serving stage_eq goes => exact .serving stage_eq (goes.begin hr htext)
  | ended _ stops =>
    have hended := stops.ended
    simp [hasEnded, hs] at hended

/-- The response that is due is sent. -/
theorem Conducts.respond {response : Response}
    (h : Conducts limit stream head handed [.ofText response.render] c) (hub : Hub) (session : Session) :
    Conducts limit stream head handed []
      (writeThen hub { c with session } (Frame.ofText response.render).bytes stay).2 := by
  cases h with
  | serving stage_eq goes =>
    have hdue : [Frame.ofText response.render] =
        [Frame.ofText response.render].filter Frame.isResponse := by
      simp [Frame.isResponse_of_response]
    rw [hdue] at goes
    exact conducts_message (c := { c with session }) (goes.of_eq rfl rfl rfl) stage_eq hub
  | ended due_eq _ => cases due_eq

end Connection

end ServiceDirectory
