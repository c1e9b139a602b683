import ServiceDirectory.Bytes

/-!
# SHA-1

The hash that the opening handshake asks for.  A message is padded to whole blocks of 64
bytes; each block is 16 words of 32 bits and is worked into a state of five words in 80 rounds.  The
words of the later rounds are computed from the 16 before them, so a round needs no more than a
window of 16 words: it uses the first and appends the next.
-/

namespace ServiceDirectory.Sha1

/-- The five words of the state. -/
structure State where
  a : UInt32
  b : UInt32
  c : UInt32
  d : UInt32
  e : UInt32
  deriving DecidableEq, Repr

/-- The state before the first block. -/
def State.start : State :=
  ⟨0x67452301, 0xEFCDAB89, 0x98BADCFE, 0x10325476, 0xC3D2E1F0⟩

/-- Word by word sum. -/
def State.add (s t : State) : State :=
  ⟨s.a + t.a, s.b + t.b, s.c + t.c, s.d + t.d, s.e + t.e⟩

/-- Rotation to the left by fewer than 32 bits. -/
def rotate (n : UInt32) (w : UInt32) : UInt32 := (w <<< n) ||| (w >>> (32 - n))

/-- The function and the constant of a round. -/
def mix (round : Nat) (s : State) : UInt32 :=
  if round < 20 then ((s.b &&& s.c) ||| (~~~s.b &&& s.d)) + 0x5A827999
  else if round < 40 then (s.b ^^^ s.c ^^^ s.d) + 0x6ED9EBA1
  else if round < 60 then ((s.b &&& s.c) ||| (s.b &&& s.d) ||| (s.c &&& s.d)) + 0x8F1BBCDC
  else (s.b ^^^ s.c ^^^ s.d) + 0xCA62C1D6

/-- One round with its word. -/
def step (round : Nat) (word : UInt32) (s : State) : State :=
  ⟨rotate 5 s.a + mix round s + s.e + word, s.a, rotate 30 s.b, s.c, s.d⟩

/-- The word that follows a window of 16. -/
def nextWord (window : List UInt32) : UInt32 :=
  rotate 1 (window.getD 13 0 ^^^ window.getD 8 0 ^^^ window.getD 2 0 ^^^ window.getD 0 0)

/-- The last `n` of the 80 rounds. -/
def rounds : (n : Nat) → List UInt32 → State → State
  | 0, _, s => s
  | n + 1, window, s =>
    rounds n (window.drop 1 ++ [nextWord window]) (step (79 - n) (window.getD 0 0) s)

/-- The words of a string of bytes. -/
def words : Bytes → List UInt32
  | a :: b :: c :: d :: rest => UInt32.ofNat (BigEndian.toNat [a, b, c, d]) :: words rest
  | _ => []

/-- The words of a state, as bytes. -/
def State.toBytes (s : State) : Bytes :=
  [s.a, s.b, s.c, s.d, s.e].flatMap fun w => BigEndian.ofNat 4 w.toNat

/-- What is appended to a message of a given length to fill whole blocks: a set bit, zeros and the
length in bits. -/
def padding (length : Nat) : Bytes :=
  0x80 :: List.replicate ((119 - length % 64) % 64) 0 ++ BigEndian.ofNat 8 (8 * length)

/-- Work the first `n` blocks of a padded message into a state. -/
def absorb : (n : Nat) → Bytes → State → State
  | 0, _, s => s
  | n + 1, message, s =>
    absorb n (message.drop 64) (s.add (rounds 80 (words (message.take 64)) s))

/-- The hash of a message, 20 bytes. -/
def hash (message : Bytes) : Bytes :=
  let padded := message ++ padding message.length
  (absorb (padded.length / 64) padded State.start).toBytes

theorem length_hash (message : Bytes) : (hash message).length = 20 := by
  simp [hash, State.toBytes]

/-- Padding fills whole blocks. -/
theorem length_padded (message : Bytes) : 64 ∣ (message ++ padding message.length).length := by
  simp only [padding, List.length_append, List.length_cons, List.length_replicate,
    BigEndian.length_ofNat]
  omega

end ServiceDirectory.Sha1
