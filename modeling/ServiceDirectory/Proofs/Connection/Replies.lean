import ServiceDirectory.Proofs.Connection.Moves
import ServiceDirectory.Proofs.Json.Documents

/-!
# Replies and events

What a connection sends behind the head are frames of two kinds: replies to what comes in from its client
(`Incoming.reply?`), and events, by which it is told of the changes that others make (`Frame.isEvent`).
The two can be told apart by what is in them: a reply is never an event.
-/

namespace ServiceDirectory

open WebSocket (CloseCode Frame Incoming Violation)

namespace WebSocket.Frame

/-! ## Frames that are sent -/

/-- The bytes by which a frame is sent. -/
def bytes (frame : Frame) : Bytes := write frame.opcode frame.payload

/-- A text message. -/
def ofText (text : String) : Frame :=
  { final := true, opcode := .text, payload := Utf8.encode text.toList }

/-- A close frame, with or without a code. -/
def ofClose (code : Option CloseCode) : Frame :=
  { final := true
    opcode := .close
    payload := match code with
      | some code => BigEndian.ofNat 2 code.toNat
      | none => [] }

/-- The pong that answers a ping. -/
def pongOf (ping : Frame) : Frame := { final := true, opcode := .pong, payload := ping.payload }

theorem bytes_ofClose (code : Option CloseCode) : (ofClose code).bytes = writeClose code := by
  cases code <;> rfl

/-- The names in the object that a frame holds, if its text is an object. -/
def names? (frame : Frame) : Option (List String) :=
  match frame.opcode, Utf8.decode? frame.payload with
  | .text, some text =>
    match Json.parse? (String.ofList text) with
    | some (.object members) => some (members.map Prod.fst)
    | _ => none
  | _, _ => none

/-- The frame tells of an event: its text is an object with that name. -/
def isEvent (frame : Frame) : Bool :=
  match frame.names? with
  | some names => names.contains "event"
  | none => false

theorem names?_ofText {text : String} {members : List (String × Json)}
    (h : Json.parse? text = some (.object members)) :
    (ofText text).names? = some (members.map Prod.fst) := by
  simp only [names?, ofText, Utf8.decode?_encode, String.ofList_toList, h]

theorem isEvent_of_change (change : Change) : (ofText change.toJson.render).isEvent = true := by
  have hread := change.parse?_render
  cases change <;> (rw [isEvent, names?_ofText hread]; simp)

theorem isEvent_of_response (response : Response) : (ofText response.render).isEvent = false := by
  have hread := response.parse?_render
  rw [isEvent, names?_ofText hread]
  cases response.list <;> simp

theorem isEvent_of_opcode {frame : Frame} (h : frame.opcode ≠ .text) : frame.isEvent = false := by
  obtain ⟨final, opcode, payload⟩ := frame
  cases opcode with
  | text => exact (h rfl).elim
  | _ => rfl

theorem isEvent_ofClose (code : Option CloseCode) : (ofClose code).isEvent = false :=
  isEvent_of_opcode fun h => nomatch h

end WebSocket.Frame

/-! ## Replies -/

/-- What a connection of a session answers to a frame, from a directory as it is then: a response to a
request, a pong to a ping, a close frame to a close frame and to a frame that breaks a rule. -/
def WebSocket.Frame.reply? (directory : Directory) (session : SessionId) (frame : Frame) :
    Option Frame :=
  match frame.fault? with
  | some cause => some (.ofClose (some cause.closeCode))
  | none =>
    match frame.opcode with
    | .text => frame.request?.map fun text =>
        .ofText (directory.handleText session (String.ofList text)).1.render
    | .ping => some frame.pongOf
    | .close => some (.ofClose frame.closeCode?)
    | .pong | .continuation | .binary => none

/-- What it answers to what comes in. -/
def WebSocket.Incoming.reply? (directory : Directory) (session : SessionId) : Incoming → Option Frame
  | .frame read => read.reply? directory session
  | .broken cause => some (.ofClose (some cause.closeCode))

namespace WebSocket.Frame

variable {directory : Directory} {session : SessionId} {frame : Frame}

theorem reply?_of_fault {cause : Violation} (h : frame.fault? = some cause) :
    frame.reply? directory session = some (.ofClose (some cause.closeCode)) := by
  simp only [reply?, h]

theorem reply?_of_ping (h : frame.opcode = .ping) :
    frame.reply? directory session = some frame.pongOf := by
  simp only [reply?, fault?, h]

theorem reply?_of_pong (h : frame.opcode = .pong) : frame.reply? directory session = none := by
  simp only [reply?, fault?, h]

theorem reply?_of_close (h : frame.opcode = .close) :
    frame.reply? directory session = some (.ofClose frame.closeCode?) := by
  simp only [reply?, fault?, h]

theorem reply?_of_request {text : List Char} (h : frame.request? = some text) :
    frame.reply? directory session =
      some (.ofText (directory.handleText session (String.ofList text)).1.render) := by
  have hcond : frame.opcode = .text ∧ frame.final = true := by
    by_contra hcond
    simp [request?, hcond] at h
  have hutf8 : Utf8.decode? frame.payload = some text := by
    rwa [request?, if_pos hcond] at h
  simp only [reply?, fault?, hcond.1, hcond.2, if_true, hutf8, Option.isNone_some,
    Bool.false_eq_true, if_false, h, Option.map_some]

end WebSocket.Frame

/-! ## What a connection takes in -/

/-- Something that a connection takes in, and the directory at that moment. -/
structure Reception where
  incoming : Incoming
  directory : Directory

/-- What is taken in by a move. -/
def Connection.Occurrence.receptions (directory : Directory) (occurrence : Occurrence) :
    List Reception :=
  occurrence.incoming?.toList.map fun incoming => { incoming, directory }

/-- The replies to all that a connection of a session takes in. -/
def repliesTo (session : SessionId) (receptions : List Reception) : List Frame :=
  receptions.filterMap fun reception => reception.incoming.reply? reception.directory session

theorem repliesTo_concat (session : SessionId) (receptions : List Reception) (incoming : Incoming)
    (directory : Directory) :
    repliesTo session (receptions ++ [⟨incoming, directory⟩]) =
      repliesTo session receptions ++ (incoming.reply? directory session).toList := by
  rw [repliesTo, List.filterMap_append]
  congr 1

end ServiceDirectory
