import ServiceDirectory.Entry

/-!
# The table of entries

The entries that are listed at present, at most one for each identifier.  The table itself is in no
particular order: every entry carries the number of its registration, and the order of a listing is
the order of these numbers.  An entry keeps its number while its address changes; one that leaves and
comes back gets a new number and so moves to the end.
-/

namespace ServiceDirectory

/-- An entry and the number of its registration. -/
structure Slot where
  number : UInt64
  entry : Entry
  deriving DecidableEq, Repr

/-- The table of entries. -/
structure Store where
  slots : List Slot := []
  /-- The number of the next registration. -/
  next : UInt64 := 0
  deriving DecidableEq, Repr

/-- Why a change of the table is not possible. -/
inductive StoreError where
  | alreadyRegistered (id : Uuid)
  | notFound (id : Uuid)
  deriving DecidableEq, Repr

/-- The text that describes an error. -/
def StoreError.message : StoreError → String
  | alreadyRegistered id => "entry already registered: " ++ id.toText
  | notFound id => "entry not found: " ++ id.toText

/-- The slot of this identifier. -/
def Slot.Holds (id : Uuid) (slot : Slot) : Prop := slot.entry.id = id

instance (id : Uuid) (slot : Slot) : Decidable (slot.Holds id) := by
  unfold Slot.Holds; infer_instance

namespace Store

/-- The table without entries. -/
def empty : Store := {}

/-- The slot of an identifier. -/
def slot? (store : Store) (id : Uuid) : Option Slot :=
  store.slots.find? fun slot => slot.Holds id

/-- The entry of an identifier. -/
def get? (store : Store) (id : Uuid) : Option Entry := (store.slot? id).map (·.entry)

/-- How many entries are listed. -/
def size (store : Store) : Nat := store.slots.length

/-- The entries in the order of their registration. -/
def toList (store : Store) : List Entry :=
  (store.slots.mergeSort fun a b => decide (a.number ≤ b.number)).map (·.entry)

/-- Add an entry, unless its identifier is taken. -/
def register (store : Store) (entry : Entry) : Except StoreError Store :=
  match store.slot? entry.id with
  | some _ => .error (.alreadyRegistered entry.id)
  | none => .ok { slots := ⟨store.next, entry⟩ :: store.slots, next := store.next + 1 }

/-- Take out the entry of an identifier. -/
def unregister (store : Store) (id : Uuid) : Except StoreError (Entry × Store) :=
  match store.slot? id with
  | none => .error (.notFound id)
  | some slot =>
    .ok (slot.entry, { store with slots := store.slots.filter fun slot => ¬ slot.Holds id })

/-- Replace the address of the entry of an identifier. -/
def updateAddress (store : Store) (id : Uuid) (address : Address) : Except StoreError Store :=
  match store.slot? id with
  | none => .error (.notFound id)
  | some _ =>
    .ok { store with
      slots := store.slots.map fun slot =>
        if slot.Holds id then { slot with entry := { slot.entry with address } } else slot }

end Store

end ServiceDirectory
