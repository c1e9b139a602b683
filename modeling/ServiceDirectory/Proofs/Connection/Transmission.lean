import ServiceDirectory.Proofs.Json.Documents
import ServiceDirectory.Proofs.Upgrade.Answer
import ServiceDirectory.Proofs.WebSocket.Written

/-!
# What a client is sent

`Transmission` is the grammar of all that is sent to one client, from the first byte to the last:
nothing, or the refusal of the upgrade alone, or the head that switches protocols, then messages, and at
most one close frame behind which nothing comes.  It speaks of bytes only and not of the functions that
write them; the lemmas below tie these to it.
-/

namespace ServiceDirectory

open WebSocket (CloseCode Frame Violation)
open Upgrade (Outcome SwitchingHead)

namespace Transmission

/-! ## The grammar -/

/-- The text of an object that has just one of the names `success` and `event`. -/
def IsReport (text : List Char) : Prop :=
  ∃ members, Json.parse? (String.ofList text) = some (.object members) ∧
    ("success" ∈ members.map Prod.fst ↔ "event" ∉ members.map Prod.fst)

/-- A frame that others may follow: a report, or a pong of at most 125 bytes. -/
inductive Message : Bytes → Prop
  | report {text : List Char} {payload bytes : Bytes} (utf8 : Utf8.decode? payload = some text)
    (isReport : IsReport text) (frame : Frame.Spells .text payload bytes) : Message bytes
  | pong {payload bytes : Bytes} (short : payload.length ≤ 125)
    (frame : Frame.Spells .pong payload bytes) : Message bytes

/-- A close frame, empty or with a code that may be sent. -/
inductive Closing : Bytes → Prop
  | empty {bytes : Bytes} (frame : Frame.Spells .close [] bytes) : Closing bytes
  | code {high low : UInt8} {bytes : Bytes}
    (maySend : CloseCode.MaySend (UInt16.ofNat (BigEndian.toNat [high, low])))
    (frame : Frame.Spells .close [high, low] bytes) : Closing bytes

/-- The bytes that refuse an upgrade. -/
def refusal : Bytes :=
  Utf8.encode
    "HTTP/1.1 400 Bad Request\r\nConnection: close\r\nContent-Length: 0\r\n\r\n".toList

/-- The head that switches protocols, and messages. -/
def IsOpen (bytes : Bytes) : Prop :=
  ∃ (head : Bytes) (messages : List Bytes), SwitchingHead head ∧
    (∀ message ∈ messages, Message message) ∧ bytes = head ++ messages.flatten

end Transmission

open Transmission (IsReport Message Closing IsOpen)

/-- All that is sent to one client. -/
inductive Transmission : Bytes → Prop
  | nothing : Transmission []
  | refused : Transmission Transmission.refusal
  | opened {bytes : Bytes} (isOpen : IsOpen bytes) : Transmission bytes
  | closed {bytes closing : Bytes} (isOpen : IsOpen bytes) (close : Closing closing) :
    Transmission (bytes ++ closing)

namespace Transmission

theorem IsOpen.append {bytes message : Bytes} (h : IsOpen bytes) (hm : Message message) :
    IsOpen (bytes ++ message) := by
  obtain ⟨head, messages, hhead, hmessages, rfl⟩ := h
  refine ⟨head, messages ++ [message], hhead, ?_, by simp⟩
  intro other ho
  rcases List.mem_append.mp ho with ho | ho
  · exact hmessages other ho
  · obtain rfl := List.mem_singleton.mp ho
    exact hm

/-! ## What the directory sends -/

theorem isReport_response (response : Response) : IsReport response.render.toList := by
  refine ⟨_, by rw [String.ofList_toList]; exact response.parse?_render, ?_⟩
  cases response.list <;> simp

theorem isReport_change (change : Change) : IsReport change.toJson.render.toList := by
  have hread := change.parse?_render
  cases change <;> exact ⟨_, by rw [String.ofList_toList]; exact hread, by simp⟩

theorem message_of_report {text : List Char} (h : IsReport text) :
    Message (Frame.writeText (Utf8.encode text)) :=
  .report (Utf8.decode?_encode text) h (Frame.spells_write .text _)

theorem message_pong {payload : Bytes} (h : payload.length ≤ 125) :
    Message (Frame.write .pong payload) :=
  .pong h (Frame.spells_write .pong payload)

theorem closing_writeClose {code : Option CloseCode} (h : ∀ c ∈ code, c.MaySend) :
    Closing (Frame.writeClose code) := by
  cases code with
  | none => exact .empty (Frame.spells_write .close [])
  | some c =>
    obtain ⟨high, low, hbytes⟩ : ∃ high low, BigEndian.ofNat 2 c.toNat = [high, low] :=
      ⟨_, _, rfl⟩
    have hcode : UInt16.ofNat (BigEndian.toNat [high, low]) = c := by
      rw [← hbytes, BigEndian.toNat_ofNat, Nat.mod_eq_of_lt (by simpa using c.toNat_lt)]
      exact UInt16.ofNat_toNat
    have hframe : Frame.Spells .close [high, low] (Frame.writeClose (some c)) :=
      hbytes ▸ Frame.spells_write .close _
    exact .code (by rw [hcode]; exact h c rfl) hframe

theorem response_refused (cause : Upgrade.Refusal) : (Outcome.refused cause).response = refusal :=
  rfl

theorem isOpen_of_outcome? {limit : Nat} {received rest : Bytes} {value : String}
    (h : Upgrade.Handshake.outcome? limit received = some (.accepted value, rest)) :
    IsOpen (Outcome.accepted value).response :=
  ⟨_, [], Upgrade.switchingHead_of_outcome? h, by simp, by simp⟩

/-- The answer to an upgrade request is a whole transmission. -/
theorem response_of_outcome? {limit : Nat} {received rest : Bytes} {outcome : Outcome}
    (h : Upgrade.Handshake.outcome? limit received = some (outcome, rest)) :
    Transmission outcome.response := by
  cases outcome with
  | refused cause => exact response_refused cause ▸ .refused
  | accepted value => exact .opened (isOpen_of_outcome? h)

end Transmission

end ServiceDirectory
