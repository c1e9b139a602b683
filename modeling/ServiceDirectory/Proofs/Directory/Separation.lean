import ServiceDirectory.Proofs.Directory.Transcript

/-!
# Sessions that keep to identifiers of their own

Several sessions send requests to one directory, and no identifier is named by two of them
(`Directory.Separate`).  However their requests are interleaved, each session is answered as if it were
alone, and the entries of its identifiers are those that it would have made alone, in the same order
(`transcript_of_session`).

A request asks the table one thing only, whether the identifier that it names is there
(`Directory.apply_congr`), and changes the entry of that identifier only.  So the directory with all
sessions and the directory with one of them go on side by side (`Directory.Separates`): what the second
holds is what the first holds of the identifiers of that session.  The numbers of the registrations are not
the same in the two, but their order is.
-/

namespace ServiceDirectory

/-- The identifier that a request names. -/
def Request.named? : Request → Option Uuid
  | register draft => (Field.id draft.id).toOption
  | unregister id => (Field.id id).toOption
  | updateAddress id _ => (Field.id id).toOption
  | list => none
  | unrecognized _ => none

/-- The identifier of the entry that a change is about. -/
def Change.id : Change → Uuid
  | registered entry => entry.id
  | unregistered id => id
  | addressUpdated id _ => id

namespace Directory

/-! ## What a request asks of the table -/

variable {policy : Policy} {store other : Store} {request : Request}

/-- **A request asks one thing of the table**: whether the identifier that it names is there. -/
theorem apply_congr (hlisting : request.isListing = false)
    (h : ∀ id, request.named? = some id → (store.slot? id).isSome = (other.slot? id).isSome) :
    (apply policy store request).response = (apply policy other request).response ∧
      (apply policy store request).change = (apply policy other request).change := by
  cases request with
  | list => exact nomatch hlisting
  | unrecognized name => exact ⟨rfl, rfl⟩
  | register draft =>
    simp only [apply, register]
    cases hv : draft.validate policy with
    | error rejection => exact ⟨rfl, rfl⟩
    | ok entry =>
      have hid := (Draft.fields_of_validate hv).1
      specialize h entry.id (by simp only [Request.named?, hid, Except.toOption])
      simp only [Store.register]
      cases hs : store.slot? entry.id <;> cases ho : other.slot? entry.id <;> simp_all
  | unregister id =>
    simp only [apply, unregister]
    cases hid : Field.id id with
    | error rejection => exact ⟨rfl, rfl⟩
    | ok id' =>
      specialize h id' (by simp only [Request.named?, hid, Except.toOption])
      simp only [Store.unregister]
      cases hs : store.slot? id' <;> cases ho : other.slot? id' <;> simp_all
  | updateAddress id address =>
    simp only [apply, updateAddress]
    cases hid : Field.id id with
    | error rejection => exact ⟨rfl, rfl⟩
    | ok id' =>
      cases haddress : Field.address address with
      | error rejection => exact ⟨rfl, rfl⟩
      | ok address' =>
        specialize h id' (by simp only [Request.named?, hid, Except.toOption])
        simp only [Store.updateAddress]
        cases hs : store.slot? id' <;> cases ho : other.slot? id' <;> simp_all

/-- A request changes the entry of the identifier that it names. -/
theorem named?_of_change {change : Change} (h : (apply policy store request).change = some change) :
    request.named? = some change.id := by
  cases request with
  | list => exact nomatch h
  | unrecognized name => exact nomatch h
  | register draft =>
    simp only [apply, register] at h
    split at h
    · cases h
    · next entry hv =>
      split at h
      · cases h
      · obtain rfl := Option.some.inj h
        simp only [Request.named?, (Draft.fields_of_validate hv).1, Except.toOption, Change.id]
  | unregister id =>
    simp only [apply, unregister] at h
    split at h
    · cases h
    · next hid =>
      split at h
      · cases h
      · obtain rfl := Option.some.inj h
        simp only [Request.named?, hid, Except.toOption, Change.id]
  | updateAddress id address =>
    simp only [apply, updateAddress] at h
    split at h
    · cases h
    · next hid =>
      split at h
      · cases h
      · split at h
        · cases h
        · obtain rfl := Option.some.inj h
          simp only [Request.named?, hid, Except.toOption, Change.id]

end Directory

/-! ## A change on some entries of a list -/

namespace Ledger

/-- The entries of some identifiers. -/
def only (owns : Uuid → Bool) (ledger : List Entry) : List Entry :=
  ledger.filter fun entry => owns entry.id

variable {owns : Uuid → Bool} {ledger after : List Entry} {id : Uuid} {change : Change}

theorem lookup?_only (h : owns id = true) : lookup? (only owns ledger) id = lookup? ledger id := by
  unfold lookup? only
  rw [List.find?_filter]
  congr 1
  funext entry
  by_cases heq : entry.id = id
  · simp [heq, h]
  · simp [heq]

theorem only_without : only owns (without ledger id) = without (only owns ledger) id := by
  unfold only without
  rw [List.filter_filter, List.filter_filter]
  exact List.filter_congr fun entry _ => Bool.and_comm _ _

theorem only_readdress (address : Address) :
    only owns (readdress ledger id address) = readdress (only owns ledger) id address := by
  unfold only readdress
  rw [List.filter_map]
  congr 1
  refine List.filter_congr fun entry _ => ?_
  show owns (if entry.id = id then { entry with address } else entry).id = owns entry.id
  split <;> rfl

/-- A change of an entry among those of some identifiers is made on these alone. -/
theorem applyTo?_only (howns : owns change.id = true) (h : change.applyTo? ledger = some after) :
    change.applyTo? (only owns ledger) = some (only owns after) := by
  cases change with
  | registered entry =>
    change owns entry.id = true at howns
    simp only [Change.applyTo?, lookup?_only howns] at h ⊢
    split at h
    · cases h
    · obtain rfl := Option.some.inj h
      rw [only, only, List.filter_append, List.filter_singleton, howns]
      rfl
  | unregistered id =>
    change owns id = true at howns
    simp only [Change.applyTo?, lookup?_only howns] at h ⊢
    obtain ⟨entry, hsome, rfl⟩ := Option.map_eq_some_iff.mp h
    rw [hsome, only_without]
    rfl
  | addressUpdated id address =>
    change owns id = true at howns
    simp only [Change.applyTo?, lookup?_only howns] at h ⊢
    obtain ⟨entry, hsome, rfl⟩ := Option.map_eq_some_iff.mp h
    rw [hsome, only_readdress]
    rfl

/-- A change of another entry leaves them as they are. -/
theorem only_of_applyTo? (howns : owns change.id = false) (h : change.applyTo? ledger = some after) :
    only owns after = only owns ledger := by
  -- whoever is owned is not the entry that the change is about
  have hother : ∀ entry ∈ only owns ledger, entry.id ≠ change.id := by
    intro entry hmem heq
    have hkept : owns entry.id = true := (List.mem_filter.mp hmem).2
    rw [heq, howns] at hkept
    cases hkept
  cases change with
  | registered entry =>
    change owns entry.id = false at howns
    simp only [Change.applyTo?] at h
    split at h
    · cases h
    · obtain rfl := Option.some.inj h
      rw [only, only, List.filter_append, List.filter_singleton, howns]
      exact List.append_nil _
  | unregistered id =>
    obtain ⟨entry, -, rfl⟩ := Option.map_eq_some_iff.mp h
    rw [only_without]
    exact List.filter_eq_self.mpr fun entry hmem => decide_eq_true (hother entry hmem)
  | addressUpdated id address =>
    obtain ⟨entry, -, rfl⟩ := Option.map_eq_some_iff.mp h
    rw [only_readdress]
    refine (List.map_congr_left fun entry hmem => ?_).trans (List.map_id _)
    exact if_neg (hother entry hmem)

end Ledger

namespace Directory

variable {registrations : Nat} {ledger : List Entry} {call : Call}

/-! ## What a call makes of a list -/

/-- The identifier that a call names. -/
def named? (lenient : Bool) (call : Call) : Option Uuid := (Request.parse lenient call.2).named?

/-- What a call makes of a directory that stands for a list: nothing, or a change of the entry that it
names. -/
inductive Makes (directory : Directory) (registrations : Nat) (ledger : List Entry) (call : Call) :
    Option Change → Prop where
  | nothing (store_eq : (directory.handleText call.1 call.2).2.store = directory.store) :
      Makes directory registrations ledger call none
  | change {change : Change} {after : List Entry}
      (named_eq : named? directory.lenient call = some change.id)
      (applies : change.applyTo? ledger = some after)
      (represents : (directory.handleText call.1 call.2).2.store.Represents
        (registrations + [change].countP Change.isRegistration) after) :
      Makes directory registrations ledger call (some change)

theorem makes_call {directory : Directory} (h : directory.store.Represents registrations ledger)
    (call : Call) : directory.Makes registrations ledger call (directory.changeOf call.2) := by
  have hstore := congrArg (fun handled => handled.2.store) (directory.handleText_eq call.1 call.2)
  have hdoes := does_apply h directory.policy (Request.parse directory.lenient call.2)
  unfold changeOf
  cases hmade : (apply directory.policy directory.store
      (Request.parse directory.lenient call.2)).change with
  | none =>
    refine .nothing (hstore.trans ?_)
    generalize apply directory.policy directory.store _ = applied at hmade hdoes
    cases hdoes with
    | nothing response => rfl
    | change _ _ _ => cases hmade
  | some change =>
    have hnamed := named?_of_change hmade
    generalize apply directory.policy directory.store _ = applied at hmade hdoes hstore
    cases hdoes with
    | nothing response => cases hmade
    | change _ applies represents =>
      obtain rfl := Option.some.inj hmade
      exact .change hnamed applies (hstore.symm ▸ represents)

/-! ## Side by side -/

/-- A directory that stands for a list, and one that has only the entries of some identifiers, in the
order of the list, after fewer registrations. -/
structure Separates (owns : Uuid → Bool) (registrations : Nat) (ledger : List Entry)
    (whole part : Directory) : Prop where
  policy_eq : part.policy = whole.policy
  lenient_eq : part.lenient = whole.lenient
  notices_eq : part.feed.isSome = whole.feed.isSome
  whole : whole.store.Represents registrations ledger
  part : ∃ fewer ≤ registrations, part.store.Represents fewer (Ledger.only owns ledger)

variable {owns : Uuid → Bool} {whole part : Directory}

/-- What applying a call comes to is the same on both sides. -/
theorem Separates.applied (h : Separates owns registrations ledger whole part)
    (hlisting : (Request.parse whole.lenient call.2).isListing = false)
    (howns : ∀ id, named? whole.lenient call = some id → owns id = true) :
    let request := Request.parse whole.lenient call.2
    (apply part.policy part.store request).response =
        (apply whole.policy whole.store request).response ∧
      (apply part.policy part.store request).change =
        (apply whole.policy whole.store request).change := by
  obtain ⟨fewer, -, hpart⟩ := h.part
  rw [h.policy_eq]
  refine apply_congr hlisting fun id hid => ?_
  have hwhole := h.whole.lookup? id
  rw [← Ledger.lookup?_only (howns id hid), hpart.lookup?] at hwhole
  have hsame := congrArg Option.isSome hwhole
  rwa [Option.isSome_map, Option.isSome_map] at hsame

theorem Separates.changeOf_eq (h : Separates owns registrations ledger whole part)
    (hlisting : (Request.parse whole.lenient call.2).isListing = false)
    (howns : ∀ id, named? whole.lenient call = some id → owns id = true) :
    part.changeOf call.2 = whole.changeOf call.2 := by
  unfold changeOf
  rw [h.lenient_eq]
  exact (h.applied hlisting howns).2

/-- What is seen of a call is the same on both sides. -/
theorem Separates.exchange_eq (h : Separates owns registrations ledger whole part)
    (hlisting : (Request.parse whole.lenient call.2).isListing = false)
    (howns : ∀ id, named? whole.lenient call = some id → owns id = true) :
    part.exchange call = whole.exchange call := by
  unfold exchange published
  rw [handleText_eq, handleText_eq, h.changeOf_eq hlisting howns, h.notices_eq, h.lenient_eq]
  simp only [(h.applied hlisting howns).1]

/-- **A call of whom the identifiers belong to** is handled on both sides. -/
theorem Separates.own (h : Separates owns registrations ledger whole part)
    (hlisting : (Request.parse whole.lenient call.2).isListing = false)
    (howns : ∀ id, named? whole.lenient call = some id → owns id = true) :
    ∃ after, Separates owns
      (registrations + (whole.changeOf call.2).toList.countP Change.isRegistration) after
      (whole.handleText call.1 call.2).2 (part.handleText call.1 call.2).2 := by
  obtain ⟨fewer, hfewer, hpart⟩ := h.part
  have hrest : (part.handleText call.1 call.2).2.policy = (whole.handleText call.1 call.2).2.policy ∧
      (part.handleText call.1 call.2).2.lenient = (whole.handleText call.1 call.2).2.lenient ∧
      (part.handleText call.1 call.2).2.feed.isSome =
        (whole.handleText call.1 call.2).2.feed.isSome := by
    rw [isSome_feed_handleText, isSome_feed_handleText, handleText_eq, handleText_eq]
    exact ⟨h.policy_eq, h.lenient_eq, h.notices_eq⟩
  have hwhole := makes_call h.whole call
  have hmakes := makes_call hpart call
  rw [h.changeOf_eq hlisting howns] at hmakes
  generalize whole.changeOf call.2 = made at hwhole hmakes ⊢
  cases hwhole with
  | nothing store_eq =>
    cases hmakes with
    | nothing store_eq' =>
      exact ⟨ledger, hrest.1, hrest.2.1, hrest.2.2, store_eq ▸ h.whole, fewer, hfewer,
        store_eq' ▸ hpart⟩
  | @change change after named_eq applies represents =>
    cases hmakes with
    | @change _ after' _ applies' represents' =>
      rw [Ledger.applyTo?_only (howns _ named_eq) applies] at applies'
      obtain rfl := Option.some.inj applies'
      exact ⟨after, hrest.1, hrest.2.1, hrest.2.2, represents, _, Nat.add_le_add_right hfewer _,
        represents'⟩

/-- **A call of somebody else** is handled on one side only. -/
theorem Separates.other (h : Separates owns registrations ledger whole part)
    (howns : ∀ id, named? whole.lenient call = some id → owns id = false) :
    ∃ after, Separates owns
      (registrations + (whole.changeOf call.2).toList.countP Change.isRegistration) after
      (whole.handleText call.1 call.2).2 part := by
  obtain ⟨fewer, hfewer, hpart⟩ := h.part
  have hrest : part.policy = (whole.handleText call.1 call.2).2.policy ∧
      part.lenient = (whole.handleText call.1 call.2).2.lenient ∧
      part.feed.isSome = (whole.handleText call.1 call.2).2.feed.isSome := by
    rw [isSome_feed_handleText, handleText_eq]
    exact ⟨h.policy_eq, h.lenient_eq, h.notices_eq⟩
  have hmakes := makes_call h.whole call
  generalize whole.changeOf call.2 = made at hmakes ⊢
  cases hmakes with
  | nothing store_eq =>
    exact ⟨ledger, hrest.1, hrest.2.1, hrest.2.2, store_eq ▸ h.whole, fewer, hfewer, hpart⟩
  | @change change after named_eq applies represents =>
    refine ⟨after, hrest.1, hrest.2.1, hrest.2.2, represents, fewer, ?_, ?_⟩
    · exact Nat.le_trans hfewer (Nat.le_add_right _ _)
    · rw [Ledger.only_of_applyTo? (howns _ named_eq) applies]
      exact hpart

/-- **The run**: the calls of whom the identifiers belong to, handled alone. -/
theorem Separates.run (h : Separates owns registrations ledger whole part) (mine : Call → Bool)
    (calls : List Call)
    (hlisting : ∀ call ∈ calls, (Request.parse whole.lenient call.2).isListing = false)
    (howns : ∀ call ∈ calls, ∀ id, named? whole.lenient call = some id → owns id = mine call) :
    (whole.transcript calls).filter (fun exchange => mine exchange.call) =
        part.transcript (calls.filter mine) ∧
      ∃ after, Separates owns
        (registrations + ((whole.changes calls).map Prod.snd).countP Change.isRegistration) after
        (whole.afterCalls calls) (part.afterCalls (calls.filter mine)) := by
  induction calls generalizing registrations ledger whole part with
  | nil => exact ⟨rfl, ledger, h⟩
  | cons call calls ih =>
    have hchanges : ((whole.changes (call :: calls)).map Prod.snd).countP Change.isRegistration =
        (whole.changeOf call.2).toList.countP Change.isRegistration +
          (((whole.handleText call.1 call.2).2.changes calls).map Prod.snd).countP
            Change.isRegistration := by
      simp [changes, Function.comp_def]
    rw [hchanges, ← Nat.add_assoc, transcript_cons, List.filter_cons, List.filter_cons,
      afterCalls_cons]
    have hlisting' := fun other ho => hlisting other (List.mem_cons_of_mem call ho)
    have howns' := fun other ho => howns other (List.mem_cons_of_mem call ho)
    specialize hlisting call List.mem_cons_self
    specialize howns call List.mem_cons_self
    rw [← lenient_handleText whole call.1 call.2] at hlisting' howns'
    show (if mine call = true then _ else _) = _ ∧ _
    cases hmine : mine call with
    | true =>
      rw [hmine] at howns
      obtain ⟨between, hbetween⟩ := h.own hlisting howns
      obtain ⟨htranscript, hafter⟩ := ih hbetween hlisting' howns'
      rw [if_pos rfl, if_pos rfl, transcript_cons, afterCalls_cons, htranscript,
        h.exchange_eq hlisting howns]
      exact ⟨rfl, hafter⟩
    | false =>
      rw [hmine] at howns
      obtain ⟨between, hbetween⟩ := h.other howns
      exact ih hbetween hlisting' howns'

/-! ## Sessions and their identifiers -/

/-- No identifier is named by two sessions. -/
def Separate (lenient : Bool) (calls : List Call) : Prop :=
  ∀ call ∈ calls, ∀ other ∈ calls, call.1 ≠ other.1 →
    ∀ id ∈ named? lenient call, id ∉ named? lenient other

instance (lenient : Bool) (calls : List Call) : Decidable (Separate lenient calls) := by
  unfold Separate; infer_instance

/-- The identifiers that a session names. -/
def namedBy (lenient : Bool) (session : SessionId) (calls : List Call) : List Uuid :=
  (calls.filter fun call => call.1 = session).filterMap (named? lenient)

variable {lenient : Bool} {calls : List Call} {id : Uuid}

theorem mem_namedBy {session : SessionId} : id ∈ namedBy lenient session calls ↔
    ∃ call ∈ calls, call.1 = session ∧ named? lenient call = some id := by
  simp [namedBy, and_assoc]

/-- Whose a named identifier is tells whose call named it. -/
theorem Separate.mem_namedBy_iff (h : Separate lenient calls) (session : SessionId)
    (hcall : call ∈ calls) (hid : named? lenient call = some id) :
    id ∈ namedBy lenient session calls ↔ call.1 = session := by
  rw [mem_namedBy]
  constructor
  · rintro ⟨other, hother, hsession, hid'⟩
    by_contra hne
    rw [← hsession] at hne
    exact h call hcall other hother hne id hid hid'
  · exact fun hsession => ⟨call, hcall, hsession, hid⟩

theorem separates_fresh (owns : Uuid → Bool) (policy : Policy) (feed : Option (Channel Notice))
    (lenient : Bool) : Separates owns 0 [] ({ policy, feed, lenient } : Directory)
      { policy, feed, lenient } where
  policy_eq := rfl
  lenient_eq := rfl
  notices_eq := rfl
  whole := Store.represents_empty
  part := ⟨0, Nat.le_refl 0, Store.represents_empty⟩

/-- The entries of some identifiers, as they are listed on both sides. -/
theorem Separates.perm_toList (h : Separates owns registrations ledger whole part) :
    (Ledger.only owns whole.store.toList).Perm part.store.toList := by
  obtain ⟨fewer, -, hpart⟩ := h.part
  exact (h.whole.perm_toList.symm.filter _).trans hpart.perm_toList

theorem Separates.toList_eq (h : Separates owns registrations ledger whole part)
    (hfew : registrations < 2 ^ 64) :
    Ledger.only owns whole.store.toList = part.store.toList := by
  obtain ⟨fewer, hfewer, hpart⟩ := h.part
  rw [h.whole.toList hfew, hpart.toList (Nat.lt_of_le_of_lt hfewer hfew)]

/-- Nothing is listed but what was named. -/
theorem named_of_mem_toList (policy : Policy) (feed : Option (Channel Notice)) (lenient : Bool)
    {calls : List Call}
    (hlisting : ∀ call ∈ calls, (Request.parse lenient call.2).isListing = false) {entry : Entry}
    (h : entry ∈ (afterCalls { policy, feed, lenient } calls).store.toList) :
    ∃ call ∈ calls, named? lenient call = some entry.id := by
  by_contra hnone
  -- the identifiers that no call names belong to nobody, and nobody has made any entry
  obtain ⟨-, after, hafter⟩ := (separates_fresh
    (fun id => decide (∀ call ∈ calls, named? lenient call ≠ some id)) policy feed lenient).run
    (fun _ => false) calls hlisting (fun call hcall id hid => decide_eq_false fun hfree =>
      hfree call hcall hid)
  have hperm := hafter.perm_toList
  rw [List.filter_false] at hperm
  have hmem : entry ∈ Ledger.only (fun id => decide (∀ call ∈ calls, named? lenient call ≠ some id))
      (afterCalls { policy, feed, lenient } calls).store.toList := by
    refine List.mem_filter.mpr ⟨h, decide_eq_true fun call hcall hid => hnone ⟨call, hcall, hid⟩⟩
  have hempty : Store.empty.toList = [] := by simp [Store.toList, Store.empty]
  have hlisted : entry ∈ Store.empty.toList := hperm.mem_iff.mp hmem
  rw [hempty] at hlisted
  cases hlisted

end Directory

/-- **Sessions that keep to identifiers of their own do not disturb each other.**  Sessions send requests
to a directory that begins with an empty table; none asks for the listing, and no identifier is named by
two sessions.  However the requests are interleaved, what is seen of the requests of a session, responses
and notices, is what is seen where it is alone; the entries of its identifiers are those that it makes
alone; and nothing else is listed.

The entries stand in the same order too, as long as a word of 64 bits counts the registrations. -/
theorem transcript_of_session (policy : Policy) (feed : Option (Channel Notice)) (lenient : Bool)
    (calls : List Directory.Call)
    (hlisting : ∀ call ∈ calls, (Request.parse lenient call.2).isListing = false)
    (hseparate : Directory.Separate lenient calls) (session : SessionId) :
    let fresh : Directory := { policy, feed, lenient }
    let alone := calls.filter fun call => call.1 = session
    let listed := (fresh.afterCalls calls).store.toList
    let own := listed.filter fun entry => entry.id ∈ Directory.namedBy lenient session calls
    (fresh.transcript calls).filter (fun exchange => exchange.call.1 = session) =
        fresh.transcript alone ∧
      own.Perm (fresh.afterCalls alone).store.toList ∧
      (((fresh.changes calls).map Prod.snd).countP Change.isRegistration < 2 ^ 64 →
        own = (fresh.afterCalls alone).store.toList) ∧
      ∀ entry ∈ listed, ∃ call ∈ calls, Directory.named? lenient call = some entry.id := by
  intro fresh alone listed own
  have howns : ∀ call ∈ calls, ∀ id, Directory.named? lenient call = some id →
      decide (id ∈ Directory.namedBy lenient session calls) = decide (call.1 = session) :=
    fun call hcall id hid => decide_eq_decide.mpr (hseparate.mem_namedBy_iff session hcall hid)
  obtain ⟨htranscript, after, hafter⟩ := (Directory.separates_fresh
    (fun id => decide (id ∈ Directory.namedBy lenient session calls)) policy feed lenient).run
    (fun call => decide (call.1 = session)) calls hlisting howns
  rw [Nat.zero_add] at hafter
  exact ⟨htranscript, hafter.perm_toList, hafter.toList_eq,
    fun entry he => Directory.named_of_mem_toList policy feed lenient hlisting he⟩

/-- One session registers an entry, and another is told that there is none of the identifier that it
names. -/
theorem transcript_of_two_sessions :
    let registration := "\x7b\"request\":\"register\",\"entry\":" ++
      "\x7b\"id\":\"00000000-0000-0000-0000-000000000001\",\"name\":\"a\",\"topic\":\"clock\"," ++
      "\"type\":\"service\",\"address\":\"c:1\"\x7d\x7d"
    let removal := "\x7b\"request\":\"unregister\",\"id\":\"00000000-0000-0000-0000-000000000002\"\x7d"
    let calls : List Directory.Call := [(2, removal), (1, registration)]
    let fresh : Directory := { lenient := false }
    let alone := calls.filter fun call => call.1 = 1
    let own := (fresh.afterCalls calls).store.toList.filter
      fun entry => entry.id ∈ Directory.namedBy false 1 calls
    (∀ call ∈ calls, (Request.parse false call.2).isListing = false) ∧
      Directory.Separate false calls ∧
      ((fresh.transcript calls).map (·.response.success) = [false, true]) ∧
      (fresh.transcript calls).filter (fun exchange => exchange.call.1 = 1) = fresh.transcript alone ∧
      own = (fresh.afterCalls alone).store.toList := by
  intro registration removal calls fresh alone own
  have hfacts : (∀ call ∈ calls, (Request.parse false call.2).isListing = false) ∧
      Directory.Separate false calls ∧
      (fresh.transcript calls).map (·.response.success) = [false, true] ∧
      ((fresh.changes calls).map Prod.snd).countP Change.isRegistration = 1 := by
    decide +kernel
  obtain ⟨hlisting, hseparate, hseen, hcount⟩ := hfacts
  obtain ⟨htranscript, -, hlisted, -⟩ :=
    transcript_of_session {} none false calls hlisting hseparate 1
  have hfew : ((fresh.changes calls).map Prod.snd).countP Change.isRegistration < 2 ^ 64 := by
    rw [hcount]
    decide
  exact ⟨hlisting, hseparate, hseen, htranscript, hlisted hfew⟩

end ServiceDirectory
