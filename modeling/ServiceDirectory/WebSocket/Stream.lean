import ServiceDirectory.WebSocket.Frame

/-!
# Streams of masked frames

The bytes of a client come in chunks that do not respect the frames.  `Frame.readAll` takes the
frames at the front of the bytes received until one is not complete or a rule is broken;
`Frame.feed` does so after each chunk, and stops for good at the first broken rule.
-/

namespace ServiceDirectory.WebSocket.Frame

/-- Why no more frames were read. -/
inductive Stop where
  /-- The next frame is not complete. -/
  | incomplete
  | violation (cause : Violation)
  | outOfBounds
  deriving DecidableEq, Repr

/-- The frames read, why there are no more, and the bytes not taken. -/
structure Batch where
  frames : List Frame := []
  stop : Stop
  rest : Bytes
  deriving DecidableEq, Repr

/-- Read frames of at most `limit` payload bytes until there are no more. -/
def readAll (limit : UInt64) (received : Bytes) : Batch :=
  match _h : readMasked limit received with
  | .incomplete => { stop := .incomplete, rest := received }
  | .outOfBounds => { stop := .outOfBounds, rest := received }
  | .violation cause rest => { stop := .violation cause, rest }
  | .frame frame rest =>
    let batch := readAll limit rest
    { batch with frames := frame :: batch.frames }
termination_by received.length
decreasing_by exact length_rest_of_readMasked _h

/-- What is read after each chunk, when `pending` was received before; chunks after a broken rule are
not looked at. -/
def feed (limit : UInt64) (pending : Bytes) : List Bytes → List Batch
  | [] => []
  | chunk :: chunks =>
    let batch := readAll limit (pending ++ chunk)
    match batch.stop with
    | .incomplete => batch :: feed limit batch.rest chunks
    | _ => [batch]

end ServiceDirectory.WebSocket.Frame
