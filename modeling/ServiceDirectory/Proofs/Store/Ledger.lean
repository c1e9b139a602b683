import ServiceDirectory.Store

/-!
# The table as a list

What the table of entries is for those who use it: a list of entries, no two of the same identifier,
in the order in which they were registered.  `Ledger` has the operations of the table on such a list,
and `Store.Run` says what a run of operations on the table itself can answer.

A table is kept in no particular order, and a listing sorts it by a sort that need not be stable.
`Store.Run` leaves both open: between two operations the slots may come into any order
(`Store.Rearranges`), and a listing may be any arrangement of the slots with their numbers ascending.
-/

namespace ServiceDirectory

/-- The operations of a table of entries. -/
inductive Store.Operation where
  | register (entry : Entry)
  | unregister (id : Uuid)
  | updateAddress (id : Uuid) (address : Address)
  | get (id : Uuid)
  | list
  | size
  deriving DecidableEq, Repr

/-- What an operation answers. -/
inductive Store.Answer where
  | registered
  | removed (entry : Entry)
  | updated
  | refused (error : StoreError)
  | found (entry : Option Entry)
  | entries (entries : List Entry)
  | count (size : Nat)
  deriving DecidableEq, Repr

open Store (Operation Answer)

/-! ## The operations on a list -/

namespace Ledger

/-- The entry of an identifier. -/
def lookup? (ledger : List Entry) (id : Uuid) : Option Entry :=
  ledger.find? fun entry => entry.id = id

/-- The list without the entry of an identifier. -/
def without (ledger : List Entry) (id : Uuid) : List Entry :=
  ledger.filter fun entry => entry.id ≠ id

/-- The list in which the entry of an identifier has another address. -/
def readdress (ledger : List Entry) (id : Uuid) (address : Address) : List Entry :=
  ledger.map fun entry => if entry.id = id then { entry with address } else entry

/-- One operation on the list: what it answers, and the list after it. -/
def perform (ledger : List Entry) : Operation → Answer × List Entry
  | .register entry =>
    match lookup? ledger entry.id with
    | some _ => (.refused (.alreadyRegistered entry.id), ledger)
    | none => (.registered, ledger ++ [entry])
  | .unregister id =>
    match lookup? ledger id with
    | none => (.refused (.notFound id), ledger)
    | some entry => (.removed entry, without ledger id)
  | .updateAddress id address =>
    match lookup? ledger id with
    | none => (.refused (.notFound id), ledger)
    | some _ => (.updated, readdress ledger id address)
  | .get id => (.found (lookup? ledger id), ledger)
  | .list => (.entries ledger, ledger)
  | .size => (.count ledger.length, ledger)

/-- The operations in turn: what each of them answers, and the list after them. -/
def run (ledger : List Entry) : List Operation → List Answer × List Entry
  | [] => ([], ledger)
  | operation :: operations =>
    let performed := perform ledger operation
    let rest := run performed.2 operations
    (performed.1 :: rest.1, rest.2)

end Ledger

/-! ## The operations on the table -/

namespace Store

/-- One operation on the table: what it answers, and the table after it. -/
def perform (store : Store) : Operation → Answer × Store
  | .register entry =>
    match store.register entry with
    | .error error => (.refused error, store)
    | .ok next => (.registered, next)
  | .unregister id =>
    match store.unregister id with
    | .error error => (.refused error, store)
    | .ok (entry, next) => (.removed entry, next)
  | .updateAddress id address =>
    match store.updateAddress id address with
    | .error error => (.refused error, store)
    | .ok next => (.updated, next)
  | .get id => (.found (store.get? id), store)
  | .list => (.entries store.toList, store)
  | .size => (.count store.size, store)

/-- One operation, whichever sort a listing uses. -/
inductive Performs (store : Store) : Operation → Answer → Store → Prop
  | once (operation : Operation) :
    Performs store operation (store.perform operation).1 (store.perform operation).2
  | list {sorted : List Slot} (arranged : sorted.Perm store.slots)
    (ascending : sorted.Pairwise fun a b => a.number ≤ b.number) :
    Performs store .list (.entries (sorted.map (·.entry))) store

/-- Two tables hold the same slots in whatever orders. -/
structure Rearranges (store other : Store) : Prop where
  slots : store.slots.Perm other.slots
  next : store.next = other.next

theorem Rearranges.refl (store : Store) : store.Rearranges store := ⟨.refl _, rfl⟩

/-- What a run of operations can answer and which table it can leave, whatever order the slots are in
before each of the operations. -/
inductive Run : Store → List Operation → List Answer → Store → Prop
  | nil (store : Store) : Run store [] [] store
  | cons {store arranged next last : Store} {operation : Operation} {answer : Answer}
    {operations : List Operation} {answers : List Answer} (rearranged : store.Rearranges arranged)
    (performed : arranged.Performs operation answer next) (rest : Run next operations answers last) :
    Run store (operation :: operations) (answer :: answers) last

end Store

end ServiceDirectory
