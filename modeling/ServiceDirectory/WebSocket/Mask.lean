import ServiceDirectory.Bytes

/-!
# Masking

A client hides its payloads under a key of four bytes, laid over the data again and again.  Masking
is its own inverse.
-/

namespace ServiceDirectory.WebSocket

/-- The four bytes laid over a payload. -/
structure MaskKey where
  k0 : UInt8
  k1 : UInt8
  k2 : UInt8
  k3 : UInt8
  deriving DecidableEq, Repr

namespace MaskKey

/-- The byte of the key that covers position `i` of the data. -/
def byte (key : MaskKey) (i : Nat) : UInt8 :=
  match i % 4 with
  | 0 => key.k0
  | 1 => key.k1
  | 2 => key.k2
  | _ => key.k3

/-- Lay the key over the data. -/
def apply (key : MaskKey) (data : Bytes) : Bytes :=
  data.mapIdx fun i b => b ^^^ key.byte i

/-- The key as it is written on the wire. -/
def toBytes (key : MaskKey) : Bytes := [key.k0, key.k1, key.k2, key.k3]

/-- The key written in four bytes. -/
def ofBytes? : Bytes → Option MaskKey
  | [k0, k1, k2, k3] => some ⟨k0, k1, k2, k3⟩
  | _ => none

@[simp] theorem ofBytes?_toBytes (key : MaskKey) : ofBytes? key.toBytes = some key := rfl

@[simp] theorem length_apply (key : MaskKey) (data : Bytes) :
    (key.apply data).length = data.length := by
  simp [apply]

/-- Masking twice gives the data back. -/
@[simp] theorem apply_apply (key : MaskKey) (data : Bytes) : key.apply (key.apply data) = data := by
  apply List.ext_getElem
  · simp
  · intro i h₁ h₂
    simp only [apply, List.getElem_mapIdx]
    rw [UInt8.xor_assoc, UInt8.xor_self, UInt8.xor_zero]

end MaskKey

end ServiceDirectory.WebSocket
