import Mathlib.Algebra.Ring.Nat
import Mathlib.Data.List.Nodup
import ServiceDirectory.Proofs.Store.Ledger

/-!
# The table refines an ordered list

Whatever order the slots of a table are in, its operations answer as those of `Ledger` do
(`run_eq_ledger`).

What carries the proof is `Store.Represents`: a table holds the entries of a list, and while there are
numbers left for registrations, the list is in the order of its slots (`Store.Arranges`), whose numbers
differ from each other and lie below that of the next registration.  There is one such arrangement only,
so every sort finds it.
-/

namespace ServiceDirectory

open Store (Operation Answer)

/-! ## Lists with keys -/

/-- Where the keys differ, finding a key is being in the list. -/
theorem find?_key_eq_some_iff [DecidableEq κ] (key : α → κ) {l : List α} (hn : (l.map key).Nodup)
    {k : κ} {a : α} : l.find? (fun x => key x = k) = some a ↔ a ∈ l ∧ key a = k := by
  constructor
  · intro h
    exact ⟨List.mem_of_find?_eq_some h, by simpa using List.find?_some h⟩
  · rintro ⟨ha, rfl⟩
    cases hf : l.find? (fun x => key x = key a) with
    | none => exact absurd (List.find?_eq_none.mp hf a ha) (by simp)
    | some b =>
      have hb : key b = key a := by simpa using List.find?_some hf
      rw [List.inj_on_of_nodup_map hn (List.mem_of_find?_eq_some hf) ha hb]

/-- Where the keys differ, finding a key does not depend on the order. -/
theorem find?_key_of_perm [DecidableEq κ] (key : α → κ) {l l' : List α} (hp : l.Perm l')
    (hn : (l.map key).Nodup) (k : κ) :
    l.find? (fun x => key x = k) = l'.find? (fun x => key x = k) := by
  have hn' : (l'.map key).Nodup := (hp.map key).nodup_iff.mp hn
  refine Option.ext ?_
  intro a
  rw [find?_key_eq_some_iff key hn, find?_key_eq_some_iff key hn', hp.mem_iff]

/-! ## The slots in the order of their numbers -/

namespace Store

/-- The slots of a table in the order of their numbers, which differ from each other and lie below that
of the next registration. -/
structure Arranges (store : Store) (slots : List Slot) : Prop where
  perm : slots.Perm store.slots
  ascending : slots.Pairwise fun a b => a.number < b.number
  below : ∀ slot ∈ slots, slot.number < store.next

variable {store : Store} {slots : List Slot}

theorem arranges_empty : Arranges .empty [] where
  perm := .nil
  ascending := .nil
  below := nofun

theorem Arranges.rearranges (h : store.Arranges slots) {other : Store}
    (ho : store.Rearranges other) : other.Arranges slots where
  perm := h.perm.trans ho.slots
  ascending := h.ascending
  below := by
    rw [← ho.next]
    exact h.below

/-- **One arrangement only**: slots sorted by their numbers are the slots in this order, whatever order
they were in and whether or not the sort is stable. -/
theorem Arranges.eq_of_sorted (h : store.Arranges slots) {sorted : List Slot}
    (hp : sorted.Perm store.slots) (hs : sorted.Pairwise fun a b => a.number ≤ b.number) :
    sorted = slots := by
  have hperm : sorted.Perm slots := hp.trans h.perm.symm
  have hle : slots.Pairwise fun a b => a.number ≤ b.number :=
    h.ascending.imp fun hab => UInt64.le_of_lt hab
  -- the numbers differ, so at each place there is only one slot to choose
  have hinj : ∀ a ∈ slots, ∀ b ∈ slots, a.number = b.number → a = b := by
    intro a ha b hb
    refine List.inj_on_of_nodup_map ?_ ha hb
    exact List.pairwise_map.mpr (h.ascending.imp fun hab => UInt64.ne_of_lt hab)
  refine List.Perm.eq_of_pairwise (fun a b ha hb hab hba => ?_) hs hle hperm
  exact hinj a (hperm.mem_iff.mp ha) b hb (UInt64.le_antisymm hab hba)

theorem Arranges.toList (h : store.Arranges slots) : store.toList = slots.map (·.entry) := by
  have hsorted : (store.slots.mergeSort fun a b => decide (a.number ≤ b.number)).Pairwise
      fun a b => decide (a.number ≤ b.number) = true := by
    refine List.pairwise_mergeSort (fun a b c hab hbc => ?_) (fun a b => ?_) store.slots
    · simp only [decide_eq_true_eq] at hab hbc ⊢
      exact UInt64.le_trans hab hbc
    · simp only [Bool.or_eq_true, decide_eq_true_eq]
      exact UInt64.le_total a.number b.number
  rw [Store.toList, h.eq_of_sorted (List.mergeSort_perm _ _) (by simpa using hsorted)]

/-- A new entry goes behind the others, as long as there is a number after its own. -/
theorem Arranges.add (h : store.Arranges slots) (hnext : store.next.toNat + 1 < 2 ^ 64)
    (entry : Entry) :
    Arranges { slots := ⟨store.next, entry⟩ :: store.slots, next := store.next + 1 }
      (slots ++ [⟨store.next, entry⟩]) := by
  have hsucc : store.next < store.next + 1 := by
    rw [UInt64.lt_iff_toNat_lt, UInt64.toNat_add]
    simp only [UInt64.toNat_one]
    omega
  refine ⟨?_, ?_, ?_⟩
  · exact List.perm_append_comm.trans (h.perm.cons _)
  · rw [List.pairwise_append]
    refine ⟨h.ascending, List.pairwise_singleton .., ?_⟩
    intro a ha b hb
    obtain rfl := List.mem_singleton.mp hb
    exact h.below a ha
  · intro slot hs
    rcases List.mem_append.mp hs with hs | hs
    · exact UInt64.lt_trans (h.below slot hs) hsucc
    · obtain rfl := List.mem_singleton.mp hs
      exact hsucc

/-- Without some of the slots the others keep their order. -/
theorem Arranges.filter (h : store.Arranges slots) (keep : Slot → Bool) :
    Arranges { store with slots := store.slots.filter keep } (slots.filter keep) where
  perm := h.perm.filter keep
  ascending := h.ascending.filter keep
  below := by
    intro slot hs
    exact h.below slot (List.mem_of_mem_filter hs)

/-- Slots that keep their numbers keep their order. -/
theorem Arranges.map (h : store.Arranges slots) (change : Slot → Slot)
    (hnumber : ∀ slot, (change slot).number = slot.number) :
    Arranges { store with slots := store.slots.map change } (slots.map change) where
  perm := h.perm.map change
  ascending := by
    rw [List.pairwise_map]
    simpa [hnumber] using h.ascending
  below := by
    intro slot hs
    obtain ⟨before, hb, rfl⟩ := List.mem_map.mp hs
    rw [hnumber]
    exact h.below before hb

/-! ## The list that a table stands for -/

/-- The table holds the entries of a list, no two of one identifier, after so many registrations.  The
numbers of registrations are words of 64 bits; while they last, the table stands for the list in its
order. -/
structure Represents (store : Store) (registrations : Nat) (ledger : List Entry) : Prop where
  perm : ledger.Perm (store.slots.map (·.entry))
  unique : (ledger.map Entry.id).Nodup
  ordered : registrations < 2 ^ 64 →
    store.next.toNat = registrations ∧ ∃ slots, store.Arranges slots ∧ slots.map (·.entry) = ledger

variable {registrations : Nat} {ledger : List Entry}

theorem represents_empty : Represents .empty 0 [] where
  perm := .nil
  unique := .nil
  ordered _ := ⟨rfl, [], arranges_empty, rfl⟩

theorem Represents.rearranges (h : store.Represents registrations ledger) {other : Store}
    (ho : store.Rearranges other) : other.Represents registrations ledger where
  perm := h.perm.trans (ho.slots.map _)
  unique := h.unique
  ordered hfew := by
    obtain ⟨hcount, slots, hs, hl⟩ := h.ordered hfew
    exact ⟨ho.next ▸ hcount, slots, hs.rearranges ho, hl⟩

theorem Represents.toList (h : store.Represents registrations ledger)
    (hfew : registrations < 2 ^ 64) : store.toList = ledger := by
  obtain ⟨-, slots, hs, rfl⟩ := h.ordered hfew
  exact hs.toList

/-- A listing holds the entries of the list in any case. -/
theorem Represents.perm_toList (h : store.Represents registrations ledger) :
    ledger.Perm store.toList :=
  h.perm.trans ((List.mergeSort_perm _ _).symm.map _)

/-- A table stands for what it lists. -/
theorem Represents.listed (h : store.Represents registrations ledger) :
    store.Represents registrations store.toList where
  perm := h.perm_toList.symm.trans h.perm
  unique := (h.perm_toList.map _).nodup_iff.mp h.unique
  ordered hfew := by
    rw [h.toList hfew]
    exact h.ordered hfew

theorem Represents.size (h : store.Represents registrations ledger) :
    store.size = ledger.length := by
  rw [Store.size, h.perm.length_eq, List.length_map]

theorem Represents.get? (h : store.Represents registrations ledger) (id : Uuid) :
    store.get? id = Ledger.lookup? ledger id := by
  rw [Ledger.lookup?, find?_key_of_perm Entry.id h.perm h.unique, List.find?_map]
  rfl

/-- An identifier has a slot where the list has an entry of it. -/
theorem Represents.lookup? (h : store.Represents registrations ledger) (id : Uuid) :
    Ledger.lookup? ledger id = (store.slot? id).map (·.entry) :=
  (h.get? id).symm

theorem Represents.add (h : store.Represents registrations ledger) {entry : Entry}
    (hnew : store.slot? entry.id = none) :
    Represents { slots := ⟨store.next, entry⟩ :: store.slots, next := store.next + 1 }
      (registrations + 1) (ledger ++ [entry]) where
  perm := List.perm_append_comm.trans (h.perm.cons entry)
  unique := by
    have habsent : ∀ other ∈ ledger, other.id ≠ entry.id := by
      have hnone := h.lookup? entry.id
      rw [hnew, Option.map_none, Ledger.lookup?, List.find?_eq_none] at hnone
      simpa using hnone
    rw [List.map_append, List.nodup_append]
    refine ⟨h.unique, by simp, ?_⟩
    intro id hid other ho
    obtain ⟨before, hb, rfl⟩ := List.mem_map.mp hid
    obtain rfl := List.mem_singleton.mp ho
    exact habsent before hb
  ordered hfew := by
    obtain ⟨rfl, slots, hs, rfl⟩ := h.ordered (by omega)
    refine ⟨?_, _, hs.add hfew entry, by simp⟩
    rw [UInt64.toNat_add, UInt64.toNat_one, Nat.mod_eq_of_lt hfew]

theorem Represents.without (h : store.Represents registrations ledger) (id : Uuid) :
    Represents { store with slots := store.slots.filter fun slot => ¬ slot.Holds id }
      registrations (Ledger.without ledger id) where
  perm := by
    have hfilter := h.perm.filter fun entry => entry.id ≠ id
    rw [List.filter_map] at hfilter
    exact hfilter
  unique := h.unique.sublist (List.filter_sublist.map _)
  ordered hfew := by
    obtain ⟨hcount, slots, hs, rfl⟩ := h.ordered hfew
    refine ⟨hcount, _, hs.filter _, ?_⟩
    rw [Ledger.without, List.filter_map]
    rfl

/-- Giving slots another address gives their entries another address. -/
theorem map_entry_readdress (slots : List Slot) (id : Uuid) (address : Address) :
    (slots.map fun slot =>
        if slot.Holds id then { slot with entry := { slot.entry with address } } else slot).map
          (·.entry) =
      Ledger.readdress (slots.map (·.entry)) id address := by
  unfold Ledger.readdress
  rw [List.map_map, List.map_map]
  refine List.map_congr_left ?_
  intro slot _
  exact apply_ite Slot.entry (slot.Holds id) _ _

/-- Another address leaves the identifiers as they are. -/
theorem map_id_readdress (ledger : List Entry) (id : Uuid) (address : Address) :
    (Ledger.readdress ledger id address).map Entry.id = ledger.map Entry.id := by
  unfold Ledger.readdress
  rw [List.map_map]
  refine List.map_congr_left ?_
  intro entry _
  show (if entry.id = id then { entry with address } else entry).id = entry.id
  split <;> rfl

theorem Represents.readdress (h : store.Represents registrations ledger) (id : Uuid)
    (address : Address) :
    Represents { store with
        slots := store.slots.map fun slot =>
          if slot.Holds id then { slot with entry := { slot.entry with address } } else slot }
      registrations (Ledger.readdress ledger id address) where
  perm := by
    rw [map_entry_readdress]
    exact h.perm.map _
  unique := by
    rw [map_id_readdress]
    exact h.unique
  ordered hfew := by
    obtain ⟨hcount, slots, hs, rfl⟩ := h.ordered hfew
    refine ⟨hcount, _, hs.map _ ?_, map_entry_readdress slots id address⟩
    intro slot
    show (if slot.Holds id then { slot with entry := _ } else slot).number = slot.number
    split <;> rfl

/-! ## Runs of operations -/

/-- **The step**: an operation leaves the table standing for the list after it, and answers as on the
list. -/
theorem Represents.perform (h : store.Represents registrations ledger) (operation : Operation) :
    Represents (store.perform operation).2
        (registrations + [(store.perform operation).1].count .registered)
        (Ledger.perform ledger operation).2 ∧
      (registrations < 2 ^ 64 →
        (Ledger.perform ledger operation).1 = (store.perform operation).1) := by
  -- table and list ask the same question, whether the identifier is there, and `lookup?` answers both
  cases operation with
  | register entry =>
    simp only [Store.perform, Store.register, Ledger.perform, h.lookup?]
    cases hs : store.slot? entry.id with
    | some slot => exact ⟨h, fun _ => rfl⟩
    | none => exact ⟨h.add hs, fun _ => rfl⟩
  | unregister id =>
    simp only [Store.perform, Store.unregister, Ledger.perform, h.lookup?]
    cases hs : store.slot? id with
    | none => exact ⟨h, fun _ => rfl⟩
    | some slot => exact ⟨h.without id, fun _ => rfl⟩
  | updateAddress id address =>
    simp only [Store.perform, Store.updateAddress, Ledger.perform, h.lookup?]
    cases hs : store.slot? id with
    | none => exact ⟨h, fun _ => rfl⟩
    | some slot => exact ⟨h.readdress id address, fun _ => rfl⟩
  | get id => exact ⟨h, fun _ => congrArg Answer.found (h.get? id).symm⟩
  | list => exact ⟨h, fun hfew => congrArg Answer.entries (h.toList hfew).symm⟩
  | size => exact ⟨h, fun _ => congrArg Answer.count h.size.symm⟩

/-- The step, whichever sort a listing uses. -/
theorem Represents.performs (h : store.Represents registrations ledger) {operation : Operation}
    {answer : Answer} {next : Store} (hp : store.Performs operation answer next) :
    next.Represents (registrations + [answer].count .registered)
        (Ledger.perform ledger operation).2 ∧
      (registrations < 2 ^ 64 → (Ledger.perform ledger operation).1 = answer) := by
  cases hp with
  | once => exact h.perform operation
  | list arranged ascending =>
    refine ⟨h, ?_⟩
    intro hfew
    obtain ⟨-, slots, hs, rfl⟩ := h.ordered hfew
    rw [hs.eq_of_sorted arranged ascending]
    rfl

/-- **The run**: a table that stands for a list goes on doing so. -/
theorem Represents.run (h : store.Represents registrations ledger) {operations : List Operation}
    {answers : List Answer} {last : Store} (hr : Run store operations answers last) :
    last.Represents (registrations + answers.count .registered)
        (Ledger.run ledger operations).2 ∧
      (registrations + answers.count .registered < 2 ^ 64 →
        (Ledger.run ledger operations).1 = answers) := by
  induction hr generalizing registrations ledger with
  | nil store => exact ⟨h, fun _ => rfl⟩
  | @cons store arranged next last operation answer operations answers rearranged performed _ ih =>
    have hcount : (answer :: answers).count .registered =
        [answer].count .registered + answers.count .registered := by
      rw [← List.singleton_append, List.count_append]
    obtain ⟨hnext, hanswer⟩ := (h.rearranges rearranged).performs performed
    obtain ⟨hlast, hanswers⟩ := ih hnext
    rw [hcount, ← Nat.add_assoc]
    refine ⟨hlast, ?_⟩
    intro hfew
    rw [Ledger.run, hanswers hfew, hanswer (by omega)]

/-! ## What is refused, and what comes back -/

theorem perform_of_refused {operation : Operation} {error : StoreError}
    (h : (store.perform operation).1 = .refused error) : (store.perform operation).2 = store := by
  cases operation with
  | get id => rfl
  | list => rfl
  | size => rfl
  | register entry =>
    simp only [Store.perform] at h ⊢
    split at h
    · rfl
    · cases h
  | unregister id =>
    simp only [Store.perform] at h ⊢
    split at h
    · rfl
    · cases h
  | updateAddress id address =>
    simp only [Store.perform] at h ⊢
    split at h
    · rfl
    · cases h

/-- An operation that is refused leaves the table as it is, the number of the next registration
included. -/
theorem Performs.eq_of_refused {operation : Operation} {error : StoreError} {next : Store}
    (h : store.Performs operation (.refused error) next) : next = store := by
  generalize ha : Answer.refused error = answer at h
  cases h with
  | once => exact perform_of_refused ha.symm
  | list => rfl

/-- An entry that leaves and comes back moves behind all others. -/
theorem Represents.reregister (h : store.Represents registrations ledger)
    (hfew : registrations + 1 < 2 ^ 64) {entry again : Entry} (he : entry ∈ ledger)
    (hid : again.id = entry.id) {answers : List Answer} {last : Store}
    (hr : Run store [.unregister entry.id, .register again] answers last) :
    answers = [.removed entry, .registered] ∧
      last.toList = (ledger.filter fun other => other.id ≠ entry.id) ++ [again] := by
  have hfound : Ledger.lookup? ledger entry.id = some entry :=
    (find?_key_eq_some_iff Entry.id h.unique).mpr ⟨he, rfl⟩
  have hgone : Ledger.lookup? (Ledger.without ledger entry.id) again.id = none := by
    simp [Ledger.lookup?, Ledger.without, hid]
  cases hr with
  | cons rearranged performed rest =>
    obtain ⟨hleft, hremoved⟩ := (h.rearranges rearranged).performs performed
    specialize hremoved (by omega)
    simp only [Ledger.perform, hfound] at hremoved hleft
    subst hremoved
    cases rest with
    | cons rearranged performed rest =>
      obtain ⟨hlast, hregistered⟩ := (hleft.rearranges rearranged).performs performed
      specialize hregistered (Nat.lt_of_succ_lt hfew)
      simp only [Ledger.perform, hgone] at hregistered hlast
      subst hregistered
      cases rest
      exact ⟨rfl, hlast.toList hfew⟩

end Store

/-- **The table refines an ordered list.**  From the empty table, whatever order the slots are in before
each operation and whichever sort a listing uses: every answer is that of the operations on a list
without two entries of one identifier, and a listing at the end is this list.  The number of the next
registration counts the registrations that succeeded; what is refused changes nothing; and an entry
that leaves and comes back moves behind all others. -/
theorem run_eq_ledger {operations : List Operation} {answers : List Answer} {store : Store}
    (hrun : Store.Run .empty operations answers store)
    (hfew : answers.count .registered < 2 ^ 64) :
    (answers = (Ledger.run [] operations).1 ∧ store.toList = (Ledger.run [] operations).2 ∧
      (store.toList.map Entry.id).Nodup) ∧
    store.next.toNat = answers.count .registered ∧
    (∀ operation error next, store.Performs operation (.refused error) next → next = store) ∧
    (∀ entry ∈ store.toList, ∀ again : Entry, again.id = entry.id →
      answers.count .registered + 1 < 2 ^ 64 → ∀ more last,
        Store.Run store [.unregister entry.id, .register again] more last →
          more = [.removed entry, .registered] ∧
            last.toList = (store.toList.filter fun other => other.id ≠ entry.id) ++ [again]) := by
  obtain ⟨hlast, hanswers⟩ := Store.represents_empty.run hrun
  rw [Nat.zero_add] at hlast hanswers
  rw [hlast.toList hfew]
  refine ⟨⟨(hanswers hfew).symm, rfl, hlast.unique⟩, (hlast.ordered hfew).1, ?_, ?_⟩
  · exact fun operation error next hp => hp.eq_of_refused
  · exact fun entry he again hid hmore more last hr => hlast.reregister hmore he hid hr

/-- Two entries of which the first leaves and comes back; the slots change places before it leaves. -/
theorem run_of_swapped_slots :
    let entry (id : BitVec 128) (name : String) : Entry :=
      { id := ⟨id⟩, name, topic := "clock", kind := .service, address := ⟨none, "host", 80⟩ }
    let operations : List Operation := [.register (entry 1 "a"), .register (entry 2 "b"),
      .unregister ⟨1⟩, .register (entry 1 "c"), .list]
    let answers : List Answer := [.registered, .registered, .removed (entry 1 "a"), .registered,
      .entries [entry 2 "b", entry 1 "c"]]
    let store : Store := { slots := [⟨2, entry 1 "c"⟩, ⟨1, entry 2 "b"⟩], next := 3 }
    (Store.Run .empty operations answers store ∧ answers.count .registered < 2 ^ 64) ∧
      store.toList = [entry 2 "b", entry 1 "c"] ∧ store.next.toNat = 3 := by
  intro entry operations answers store
  have hswapped : Store.Rearranges { slots := [⟨1, entry 2 "b"⟩, ⟨0, entry 1 "a"⟩], next := 2 }
      { slots := [⟨0, entry 1 "a"⟩, ⟨1, entry 2 "b"⟩], next := 2 } := ⟨.swap .., rfl⟩
  have hsorted : [⟨1, entry 2 "b"⟩, ⟨2, entry 1 "c"⟩].Perm store.slots := .swap ..
  have hrun : Store.Run .empty operations answers store :=
    .cons (.refl _) (.once _) <| .cons (.refl _) (.once _) <| .cons hswapped (.once _) <|
      .cons (.refl _) (.once _) <| .cons (.refl store) (.list hsorted (by decide)) <| .nil _
  have hfew : answers.count .registered < 2 ^ 64 := by decide
  obtain ⟨⟨_, hlist, _⟩, hnext, _⟩ := run_eq_ledger hrun hfew
  exact ⟨⟨hrun, hfew⟩, hlist.trans rfl, hnext.trans rfl⟩

end ServiceDirectory
