import ServiceDirectory.Base64
import ServiceDirectory.Sha1
import ServiceDirectory.Upgrade.RequestHead

/-!
# The opening handshake

A connection begins as HTTP.  The server collects bytes until a request head is complete, that is,
up to and including the first CR LF CR LF, and answers it once: 101 and the accept value derived from
the client's key, or 400.  Every condition on the head is necessary on its own and the first that
fails is reported.  Bytes after the head are left for what follows.
-/

namespace ServiceDirectory.Upgrade

/-! ## What is asked of a request -/

/-- The text hashed together with the client's key. -/
def acceptSuffix : List Char := "258EAFA5-E914-47DA-95CA-C5AB0DC85B11".toList

/-- The accept value for a client's key. -/
def acceptValue (key : String) : String :=
  String.ofList (Base64.encode (Sha1.hash (Utf8.encode (key.toList ++ acceptSuffix))))

/-- A key is the base64 form of 16 bytes. -/
def IsKey (key : String) : Prop :=
  ∃ nonce ∈ Base64.decode? key.toList, nonce.length = 16

instance (key : String) : Decidable (IsKey key) :=
  match h : Base64.decode? key.toList with
  | none => .isFalse (by simp [IsKey, h])
  | some nonce => decidable_of_iff (nonce.length = 16) (by simp [IsKey, h])

/-- The accept value for a request head, or the first condition that it does not meet. -/
def accept (head : RequestHead) : Except Refusal String :=
  if head.method ≠ "GET" then .error (.method head.method)
  else if head.version ≠ "HTTP/1.1" then .error (.httpVersion head.version)
  else if ¬ head.ListsToken "Upgrade" "websocket" then .error .upgradeHeader
  else if ¬ head.ListsToken "Connection" "Upgrade" then .error .connectionHeader
  else match head.header? "Sec-WebSocket-Key" with
    | none => .error .missingKey
    | some key =>
      if ¬ IsKey key then .error .invalidKey
      else match head.header? "Sec-WebSocket-Version" with
        | none => .error .missingVersion
        | some version =>
          if version ≠ "13" then .error (.unsupportedVersion version)
          else .ok (acceptValue key)

/-! ## Outcomes and their answers -/

/-- How a handshake ends. -/
inductive Outcome where
  | accepted (acceptValue : String)
  | refused (cause : Refusal)
  deriving DecidableEq, Repr

namespace Outcome

/-- The outcome of judging a complete head. -/
def ofHead (head : Bytes) : Outcome :=
  match RequestHead.ofBytes head with
  | .error fault => .refused (.malformed fault)
  | .ok head =>
    match accept head with
    | .error cause => .refused cause
    | .ok value => .accepted value

/-- The connection is upgraded. -/
def isAccepted : Outcome → Bool
  | accepted _ => true
  | refused _ => false

/-- The text that answers the client. -/
def responseText : Outcome → String
  | accepted value =>
    "HTTP/1.1 101 Switching Protocols\r\nUpgrade: websocket\r\nConnection: Upgrade\r\n" ++
      "Sec-WebSocket-Accept: " ++ value ++ "\r\n\r\n"
  | refused _ => "HTTP/1.1 400 Bad Request\r\nConnection: close\r\nContent-Length: 0\r\n\r\n"

/-- The bytes that answer the client. -/
def response (outcome : Outcome) : Bytes := Utf8.encode outcome.responseText.toList

end Outcome

/-! ## Collecting the head -/

/-- What ends a request head. -/
def terminator : Bytes := [13, 10, 13, 10]

/-- How many bytes the first head among the bytes takes, counted from those before. -/
def headLengthFrom (before : Nat) : Bytes → Option Nat
  | [] => none
  | b :: rest =>
    if terminator.isPrefixOf (b :: rest) then some (before + terminator.length)
    else headLengthFrom (before + 1) rest

/-- How many bytes the head at the front of the bytes takes, when it is complete. -/
def headLength? (received : Bytes) : Option Nat := headLengthFrom 0 received

/-- How far a handshake has come. -/
inductive Progress where
  | reading
  | accepted
  | refused
  deriving DecidableEq, Repr

/-- A handshake: how far it has come and how large a head may be. -/
structure Handshake where
  limit : Nat
  progress : Progress := .reading
  deriving DecidableEq, Repr

namespace Handshake

/-- There was an outcome. -/
def isDone (h : Handshake) : Bool := h.progress ≠ .reading

/-- The outcome was to upgrade the connection. -/
def isAccepted (h : Handshake) : Bool := h.progress = .accepted

/-- The handshake after an outcome. -/
def finish (h : Handshake) : Outcome → Handshake
  | .accepted _ => { h with progress := .accepted }
  | .refused _ => { h with progress := .refused }

/-- The outcome that the bytes received lead to, with the bytes not taken, or nothing while the head
is not complete.  A head over the limit is refused as soon as that is certain, and is not taken. -/
def outcome? (limit : Nat) (received : Bytes) : Option (Outcome × Bytes) :=
  match headLength? received with
  | none =>
    if limit < received.length then some (.refused (.headTooLarge limit), received) else none
  | some length =>
    if limit < length then some (.refused (.headTooLarge limit), received)
    else some (.ofHead (received.take length), received.drop length)

/-- Work on the bytes received so far: at most one outcome over the life of the handshake, the
handshake after it and the bytes not taken. -/
def process (h : Handshake) (received : Bytes) : Option Outcome × Handshake × Bytes :=
  if h.isDone then (none, h, received)
  else match outcome? h.limit received with
    | none => (none, h, received)
    | some (outcome, rest) => (some outcome, h.finish outcome, rest)

/-- An outcome leaves no more bytes than there were. -/
theorem length_rest_of_outcome? {limit : Nat} {received rest : Bytes} {outcome : Outcome}
    (h : outcome? limit received = some (outcome, rest)) : rest.length ≤ received.length := by
  simp only [outcome?] at h
  repeat' split at h
  all_goals first
    | (obtain ⟨-, rfl⟩ := Prod.mk.inj (Option.some.inj h); simp)
    | simp at h

/-- The outcome of a handshake is that of the bytes received. -/
theorem outcome?_of_process {h after : Handshake} {received rest : Bytes} {outcome : Outcome}
    (hp : h.process received = (some outcome, after, rest)) :
    outcome? h.limit received = some (outcome, rest) := by
  unfold process at hp
  split at hp
  · cases hp
  · split at hp
    · cases hp
    · next ho =>
      cases hp
      exact ho

/-- Once there was an outcome nothing more is taken. -/
theorem process_of_isDone {h : Handshake} (hd : h.isDone) (received : Bytes) :
    h.process received = (none, h, received) := by
  simp [process, hd]

end Handshake

end ServiceDirectory.Upgrade
