import Mathlib.Data.List.Perm.Basic
import ServiceDirectory.Proofs.Directory.Separation

/-!
# Requests that overlap

The change that a request makes is published after the request was applied to the table, and between
the two other requests may be applied and other changes published (`BusyDirectory`).  So notices need
not come in the order of the changes: of two requests that overlap the later may be published first
(`stale_of_overlapping_updates`).

What holds of every run is that each change is published once or still has to be, and that changes which
do not overlap are published in order (`overlapped_run`).  Where no two changes of one identifier
overlap, that is enough for a subscriber: the changes of one identifier are made on the same entry in
the same order, and those of different identifiers do not disturb each other
(`Change.replay_of_same_order`).
-/

namespace ServiceDirectory

open Subscriber (noticesOf)

/-! ## Changes in another order -/

/-- The change is about the entry of an identifier. -/
def Change.concerns (id : Uuid) (change : Change) : Bool := change.id = id

theorem Change.concerns_self (change : Change) : concerns change.id change = true :=
  decide_eq_true rfl

namespace Ledger

variable {owns : Uuid → Bool} {ledger other : List Entry} {change : Change}

/-- Whether a change can be made is seen from the entries of its identifier alone. -/
theorem isSome_applyTo?_only (h : owns change.id = true) :
    (change.applyTo? (only owns ledger)).isSome = (change.applyTo? ledger).isSome := by
  cases change with
  | registered entry =>
    change owns entry.id = true at h
    simp only [Change.applyTo?, lookup?_only h]
    cases lookup? ledger entry.id <;> rfl
  | unregistered id =>
    change owns id = true at h
    simp only [Change.applyTo?, lookup?_only h, Option.isSome_map]
  | addressUpdated id address =>
    change owns id = true at h
    simp only [Change.applyTo?, lookup?_only h, Option.isSome_map]

/-- Lists that have the same entries of each identifier are the same up to order. -/
theorem perm_of_only (h : ∀ id, only (· = id) ledger = only (· = id) other) : ledger.Perm other := by
  refine List.perm_iff_count.mpr fun entry => ?_
  have hcount : ∀ list : List Entry, (only (· = entry.id) list).count entry = list.count entry :=
    fun list => List.count_filter (decide_eq_true rfl)
  rw [← hcount ledger, ← hcount other, h]

end Ledger

namespace Change

variable {ledger next after : List Entry} {log other : List Change} {change : Change} {id : Uuid}

theorem replay_cons (ledger : List Entry) (change : Change) (log : List Change) :
    replay ledger (change :: log) = (change.applyTo? ledger).bind fun next => replay next log :=
  rfl

/-- Of the changes of its identifier, a change is made on its entry. -/
theorem replay_filter_self (h : change.applyTo? ledger = some next) (log : List Change) :
    replay (Ledger.only (· = change.id) ledger) ((change :: log).filter (concerns change.id)) =
      replay (Ledger.only (· = change.id) next) (log.filter (concerns change.id)) := by
  have hmakes : change.applyTo? (Ledger.only (· = change.id) ledger) =
      some (Ledger.only (· = change.id) next) :=
    Ledger.applyTo?_only (decide_eq_true rfl) h
  rw [List.filter_cons_of_pos change.concerns_self, replay_cons, hmakes]
  rfl

/-- Among the changes of another identifier, it does not count. -/
theorem replay_filter_of_ne (hid : change.id ≠ id) (h : change.applyTo? ledger = some next)
    (log : List Change) :
    replay (Ledger.only (· = id) ledger) ((change :: log).filter (concerns id)) =
      replay (Ledger.only (· = id) next) (log.filter (concerns id)) := by
  have hkept : Ledger.only (· = id) next = Ledger.only (· = id) ledger :=
    Ledger.only_of_applyTo? (decide_eq_false hid) h
  have hnot : ¬ concerns id change = true := fun hyes => hid (of_decide_eq_true hyes)
  rw [List.filter_cons_of_neg hnot, hkept]

/-- The changes of one identifier are made on its entry, whatever the others are. -/
theorem replay_only (h : replay ledger log = some after) (id : Uuid) :
    replay (Ledger.only (· = id) ledger) (log.filter (concerns id)) =
      some (Ledger.only (· = id) after) := by
  induction log generalizing ledger with
  | nil =>
    obtain rfl := Option.some.inj h
    rfl
  | cons change log ih =>
    rw [replay_cons] at h
    obtain ⟨next, hnext, hrest⟩ := Option.bind_eq_some_iff.mp h
    by_cases hid : change.id = id
    · subst hid
      rw [replay_filter_self hnext]
      exact ih hrest
    · rw [replay_filter_of_ne hid hnext]
      exact ih hrest

/-- Changes can be made where those of each identifier can be made. -/
theorem exists_replay (h : ∀ id, ∃ after,
      replay (Ledger.only (· = id) ledger) (log.filter (concerns id)) = some after) :
    ∃ after, replay ledger log = some after := by
  induction log generalizing ledger with
  | nil => exact ⟨ledger, rfl⟩
  | cons change log ih =>
    -- the changes of its identifier begin with this change, so it can be made
    have hfirst : ∃ next, change.applyTo? ledger = some next := by
      obtain ⟨after, hafter⟩ := h change.id
      rw [List.filter_cons_of_pos change.concerns_self, replay_cons] at hafter
      obtain ⟨next, hnext, -⟩ := Option.bind_eq_some_iff.mp hafter
      have hmakes : (change.applyTo? (Ledger.only (· = change.id) ledger)).isSome = true := by
        rw [hnext]
        rfl
      rw [Ledger.isSome_applyTo?_only (decide_eq_true rfl)] at hmakes
      exact Option.isSome_iff_exists.mp hmakes
    obtain ⟨next, hnext⟩ := hfirst
    have hrest : ∀ id, ∃ after,
        replay (Ledger.only (· = id) next) (log.filter (concerns id)) = some after := by
      intro id
      obtain ⟨after, hafter⟩ := h id
      refine ⟨after, ?_⟩
      by_cases hid : change.id = id
      · subst hid
        rwa [replay_filter_self hnext] at hafter
      · rwa [replay_filter_of_ne hid hnext] at hafter
    obtain ⟨after, hafter⟩ := ih hrest
    refine ⟨after, ?_⟩
    rw [replay_cons, hnext]
    exact hafter

/-- **Only the order of the changes of one identifier matters.** -/
theorem replay_of_same_order (h : replay ledger log = some after)
    (hsame : ∀ id, other.filter (concerns id) = log.filter (concerns id)) :
    ∃ last, replay ledger other = some last ∧ last.Perm after := by
  have heach : ∀ id, replay (Ledger.only (· = id) ledger) (other.filter (concerns id)) =
      some (Ledger.only (· = id) after) := by
    intro id
    rw [hsame id]
    exact replay_only h id
  obtain ⟨last, hlast⟩ := exists_replay fun id => ⟨_, heach id⟩
  refine ⟨last, hlast, Ledger.perm_of_only fun id => ?_⟩
  exact Option.some.inj ((replay_only hlast id).symm.trans (heach id))

end Change

/-! ## A directory that handles requests at the same time -/

/-- A directory that may be in the middle of handling requests, with one of its subscribers. -/
structure BusyDirectory extends Subscriber where
  /-- The changes that were made and are not published yet, each with the session that made it. -/
  unpublished : List (SessionId × Change) := []

namespace BusyDirectory

/-- A step that nothing comes between. -/
inductive Step where
  /-- The request of a session is applied to the table. -/
  | apply (session : SessionId) (text : String)
  /-- The change in this place, of those that were made, is published. -/
  | publish (place : Nat)
  /-- The subscriber looks for its next notice. -/
  | receive

/-- What comes of a step. -/
def step (b : BusyDirectory) : Step → BusyDirectory
  | .apply session text =>
    let applied := Directory.apply b.directory.policy b.directory.store
      (Request.parse b.directory.lenient text)
    { b with
      directory := { b.directory with store := applied.store }
      unpublished := b.unpublished ++ applied.change.toList.map fun change => (session, change) }
  | .publish place =>
    match b.unpublished[place]? with
    | none => b
    | some (session, change) =>
      { b with
        directory := (b.directory.publish session change).2
        unpublished := b.unpublished.eraseIdx place }
  | .receive => { b with toSubscriber := b.toSubscriber.receive }

/-- What comes of steps, one after the other. -/
def run (b : BusyDirectory) (steps : List Step) : BusyDirectory := steps.foldl step b

/-- The change that a step makes. -/
def made? (b : BusyDirectory) : Step → Option (SessionId × Change)
  | .apply session text => (b.directory.changeOf text).map fun change => (session, change)
  | _ => none

/-- The change that a step publishes. -/
def published? (b : BusyDirectory) : Step → Option (SessionId × Change)
  | .publish place => b.unpublished[place]?
  | _ => none

/-- The changes that are made, in the order in which they are made. -/
def made (b : BusyDirectory) : List Step → List (SessionId × Change)
  | [] => []
  | step :: steps => (b.made? step).toList ++ made (b.step step) steps

/-- The changes that are published, in the order in which they are published. -/
def published (b : BusyDirectory) : List Step → List (SessionId × Change)
  | [] => []
  | step :: steps => (b.published? step).toList ++ published (b.step step) steps

/-- No two changes of a kind overlap: when one is made, the others were published. -/
def KeepsApart (kind : SessionId × Change → Bool) (b : BusyDirectory) : List Step → Prop
  | [] => True
  | step :: steps =>
    (∀ one ∈ b.made? step, kind one = true → ∀ other ∈ b.unpublished, kind other = false) ∧
      KeepsApart kind (b.step step) steps

instance decidableKeepsApart (kind : SessionId × Change → Bool) :
    (b : BusyDirectory) → (steps : List Step) → Decidable (b.KeepsApart kind steps)
  | _, [] => .isTrue trivial
  | b, step :: steps =>
    have := decidableKeepsApart kind (b.step step) steps
    inferInstanceAs (Decidable (_ ∧ _))

/-! ## One request at a time -/

/-- The steps of an event that nothing comes between. -/
def Step.ofEvent : Subscriber.Event → List Step
  | .handle session text => [.apply session text, .publish 0]
  | .receive => [.receive]

theorem run_ofEvent (s : Subscriber) (event : Subscriber.Event) :
    run { toSubscriber := s } (Step.ofEvent event) = { toSubscriber := s.step event } := by
  cases event with
  | receive => rfl
  | handle session text =>
    simp only [run, Step.ofEvent, List.foldl_cons, List.foldl_nil, step, Subscriber.step,
      Directory.handleText, Directory.handle]
    generalize Directory.apply s.directory.policy s.directory.store _ = applied
    cases applied.change <;> rfl

/-- **A directory that handles one request at a time** is one that publishes each change before the next
request is applied. -/
theorem run_ofEvents (s : Subscriber) (events : List Subscriber.Event) :
    run { toSubscriber := s } (events.flatMap Step.ofEvent) = { toSubscriber := s.run events } := by
  induction events generalizing s with
  | nil => rfl
  | cons event events ih =>
    rw [List.flatMap_cons, run, List.foldl_append]
    show run (run _ _) _ = _
    rw [run_ofEvent, ih]
    rfl

/-! ## What a step does -/

variable {b : BusyDirectory} {kind : SessionId × Change → Bool}

/-- **One step**: what was to be published and what is made is what is published and what is to be
published then. -/
theorem perm_step (b : BusyDirectory) (step : Step) :
    (b.unpublished ++ (b.made? step).toList).Perm
      ((b.published? step).toList ++ (b.step step).unpublished) := by
  cases step with
  | apply session text =>
    simp only [made?, published?, BusyDirectory.step, Directory.changeOf, Option.toList_none,
      List.nil_append]
    cases (Directory.apply _ _ _).change <;> exact .refl _
  | receive =>
    show (b.unpublished ++ []).Perm b.unpublished
    rw [List.append_nil]
  | publish place =>
    simp only [made?, published?, BusyDirectory.step, Option.toList_none, List.append_nil]
    cases hplace : b.unpublished[place]? with
    | none => exact .refl _
    | some one =>
      obtain ⟨hlt, rfl⟩ := List.getElem?_eq_some_iff.mp hplace
      exact (List.getElem_cons_eraseIdx_perm hlt).symm

/-- The same, in order, of changes of a kind that do not overlap. -/
theorem filter_step {step : Step} (hone : (b.unpublished.filter kind).length ≤ 1)
    (hapart : ∀ one ∈ b.made? step, kind one = true → ∀ other ∈ b.unpublished, kind other = false) :
    b.unpublished.filter kind ++ (b.made? step).toList.filter kind =
        (b.published? step).toList.filter kind ++ (b.step step).unpublished.filter kind ∧
      ((b.step step).unpublished.filter kind).length ≤ 1 := by
  have hperm := (b.perm_step step).filter kind
  rw [List.filter_append, List.filter_append] at hperm
  -- there is one change at most, so there is one order only
  have hlength : (b.unpublished.filter kind ++ (b.made? step).toList.filter kind).length ≤ 1 := by
    cases hmade : b.made? step with
    | none =>
      show (b.unpublished.filter kind ++ []).length ≤ 1
      rwa [List.append_nil]
    | some one =>
      by_cases hkind : kind one = true
      · have hnone : b.unpublished.filter kind = [] := by
          refine List.filter_eq_nil_iff.mpr fun other hother => ?_
          rw [hapart one hmade hkind other hother]
          exact Bool.false_ne_true
        rw [hnone]
        exact List.length_filter_le _ _
      · rw [Option.toList_some, List.filter_cons_of_neg hkind, List.filter_nil, List.append_nil]
        exact hone
  refine ⟨?_, ?_⟩
  · generalize b.unpublished.filter kind ++ _ = before at hperm hlength
    cases before with
    | nil => exact (List.nil_perm.mp hperm).symm
    | cons one rest =>
      cases rest with
      | nil => exact List.singleton_perm.mp hperm
      | cons other rest => exact absurd hlength (by simp)
  · have hsame := hperm.length_eq
    have hsplit := @List.length_append _ ((b.published? step).toList.filter kind)
    rw [hsplit] at hsame
    omega

/-- The table after a request was applied is the one after handling it. -/
theorem store_apply (b : BusyDirectory) (session : SessionId) (text : String) :
    (b.step (.apply session text)).directory.store = (b.directory.handleText session text).2.store :=
  (b.directory.store_handleText session text).symm

theorem store_publish (b : BusyDirectory) (place : Nat) :
    (b.step (.publish place)).directory.store = b.directory.store := by
  simp only [step]
  split
  · rfl
  · simp only [Directory.publish]
    split <;> rfl

theorem store_receive (b : BusyDirectory) : (b.step .receive).directory.store = b.directory.store :=
  congrArg Directory.store (Subscriber.directory_receive _)

/-- What a step publishes is what a subscriber follows. -/
theorem follows_step {start : Nat} {log : List (SessionId × Change)}
    (h : b.toSubscriber.Follows start log) (step : Step) :
    (b.step step).toSubscriber.Follows start (log ++ (b.published? step).toList) := by
  cases step with
  | apply session text =>
    show Subscriber.Follows _ start (log ++ [])
    rw [List.append_nil]
    exact h.withStore _
  | receive =>
    show Subscriber.Follows _ start (log ++ [])
    rw [List.append_nil]
    exact h.receive
  | publish place =>
    simp only [published?, BusyDirectory.step]
    cases b.unpublished[place]? with
    | none =>
      rw [Option.toList_none, List.append_nil]
      exact h
    | some one => exact h.publish one.1 one.2

/-! ## Runs -/

theorem perm_run (b : BusyDirectory) (steps : List Step) :
    (b.unpublished ++ b.made steps).Perm (b.published steps ++ (b.run steps).unpublished) := by
  induction steps generalizing b with
  | nil =>
    show (b.unpublished ++ []).Perm b.unpublished
    rw [List.append_nil]
  | cons step steps ih =>
    show (b.unpublished ++ ((b.made? step).toList ++ (b.step step).made steps)).Perm
      ((b.published? step).toList ++ (b.step step).published steps ++ _)
    rw [← List.append_assoc, List.append_assoc (b.published? step).toList]
    refine ((b.perm_step step).append_right _).trans ?_
    rw [List.append_assoc]
    exact (ih (b.step step)).append_left _

/-- **The run**: changes of a kind that do not overlap are published in the order in which they are
made. -/
theorem filter_run (hone : (b.unpublished.filter kind).length ≤ 1) {steps : List Step}
    (hapart : b.KeepsApart kind steps) :
    b.unpublished.filter kind ++ (b.made steps).filter kind =
      (b.published steps).filter kind ++ (b.run steps).unpublished.filter kind := by
  induction steps generalizing b with
  | nil => exact List.append_nil _
  | cons step steps ih =>
    obtain ⟨hstep, hone'⟩ := filter_step hone hapart.1
    have hrest := ih hone' hapart.2
    show _ ++ ((b.made? step).toList ++ (b.step step).made steps).filter kind =
      ((b.published? step).toList ++ (b.step step).published steps).filter kind ++ _
    rw [List.filter_append, List.filter_append, ← List.append_assoc, hstep, List.append_assoc, hrest,
      ← List.append_assoc]
    rfl

theorem follows_run {start : Nat} {log : List (SessionId × Change)}
    (h : b.toSubscriber.Follows start log) (steps : List Step) :
    (b.run steps).toSubscriber.Follows start (log ++ b.published steps) := by
  induction steps generalizing b log with
  | nil => exact (List.append_nil log).symm ▸ h
  | cons step steps ih =>
    have hrest := ih (follows_step h step)
    rwa [List.append_assoc] at hrest

/-- Making the changes one after the other, in the order in which they are made, gives the list that the
table stands for. -/
theorem replay_run {registrations : Nat} {ledger : List Entry}
    (h : b.directory.store.Represents registrations ledger) (steps : List Step) :
    (∀ one ∈ b.made steps, one.2.Readable) ∧
      ∃ after registrations', Change.replay ledger ((b.made steps).map Prod.snd) = some after ∧
        (b.run steps).directory.store.Represents registrations' after := by
  induction steps generalizing b registrations ledger with
  | nil => exact ⟨nofun, ledger, registrations, rfl, h⟩
  | cons step steps ih =>
    cases step with
    | apply session text =>
      obtain ⟨hreadable, between, hbetween, hnext⟩ := Directory.replay_handleText h session text
      rw [← store_apply] at hnext
      obtain ⟨hreadable', after, registrations', hafter, hlast⟩ := ih hnext
      have hmade : b.made (.apply session text :: steps) =
          ((b.directory.changeOf text).toList.map fun change => (session, change)) ++
            (b.step (.apply session text)).made steps := by
        show (Option.map _ _).toList ++ _ = _
        cases b.directory.changeOf text <;> rfl
      have hsnd : (((b.directory.changeOf text).toList.map fun change => (session, change)).map
          Prod.snd) = (b.directory.changeOf text).toList := by
        rw [List.map_map]
        exact List.map_id _
      rw [hmade, List.map_append, hsnd, Change.replay_append, hbetween]
      refine ⟨?_, after, registrations', hafter, hlast⟩
      intro one hone
      rcases List.mem_append.mp hone with hnow | hlater
      · obtain ⟨change, hchange, rfl⟩ := List.mem_map.mp hnow
        exact hreadable change (Option.mem_toList.mp hchange)
      · exact hreadable' one hlater
    | publish place => exact ih ((b.store_publish place).symm ▸ h)
    | receive => exact ih (b.store_receive.symm ▸ h)

/-- A change that is the only one of its kind does not overlap with another. -/
theorem keepsApart_of_alone {steps : List Step}
    (h : ((b.unpublished ++ b.made steps).filter kind).length ≤ 1) : b.KeepsApart kind steps := by
  induction steps generalizing b with
  | nil => trivial
  | cons step steps ih =>
    change ((b.unpublished ++ ((b.made? step).toList ++ (b.step step).made steps)).filter kind).length
      ≤ 1 at h
    refine ⟨?_, ih ?_⟩
    · rintro one hone hkind other hother
      rw [(hone : b.made? step = some one), Option.toList_some] at h
      by_contra hne
      have hmem : other ∈ b.unpublished.filter kind :=
        List.mem_filter.mpr ⟨hother, eq_true_of_ne_false hne⟩
      have hpos := List.length_pos_of_mem hmem
      rw [List.filter_append, List.length_append, List.singleton_append,
        List.filter_cons_of_pos hkind, List.length_cons] at h
      omega
    · have hperm := (((b.perm_step step).append_right ((b.step step).made steps)).filter kind).length_eq
      rw [List.append_assoc, List.append_assoc (b.published? step).toList] at hperm
      have hrest := ((List.sublist_append_right (b.published? step).toList
        ((b.step step).unpublished ++ (b.step step).made steps)).filter kind).length_le
      omega

/-- Nor do changes of different entries. -/
theorem keepsApart_of_nodup {steps : List Step} (hnone : b.unpublished = [])
    (h : ((b.made steps).map fun one => one.2.id).Nodup) (id : Uuid) :
    b.KeepsApart (fun one => one.2.concerns id) steps := by
  refine keepsApart_of_alone ?_
  rw [hnone, List.nil_append, ← List.countP_eq_length_filter]
  have hcount := List.nodup_iff_count_le_one.mp h id
  rw [List.count, List.countP_map] at hcount
  exact hcount

end BusyDirectory

/-- **Changes that do not overlap are published in order.**  From any table that can be reached, however
requests are applied, changes published and notices looked for: each change that is made is published
once, or still has to be; the channel carries the notices of the changes in the order in which these are
published, and for changes of any kind no two of which overlap this is the order in which they are made.

So where no two changes of one identifier overlap, a subscriber that has caught up without having missed
a notice, when nothing is left to publish, reads from its notices changes that fit the listing at the
time of the subscription one after the other and give the entries listed at the end. -/
theorem overlapped_run {operations : List Store.Operation} {answers : List Store.Answer}
    {directory : Directory} {s : Subscriber}
    (hreached : Store.Run .empty operations answers directory.store)
    (hbegin : Subscriber.begin? directory = some s) (steps : List BusyDirectory.Step) :
    let b : BusyDirectory := { toSubscriber := s }
    let last := b.run steps
    (b.made steps).Perm (b.published steps ++ last.unpublished) ∧
      last.toSubscriber.Follows s.receiver.next (b.published steps) ∧
      (∀ kind, b.KeepsApart kind steps →
        (b.made steps).filter kind = (b.published steps).filter kind ++ last.unpublished.filter kind) ∧
      ((∀ id, b.KeepsApart (fun one => one.2.concerns id) steps) → last.unpublished = [] →
        last.lagged = false → last.IsCaughtUp →
        last.notices.mapM Notice.change? = some ((b.published steps).map Prod.snd) ∧
          ∃ after, Change.replay directory.store.toList ((b.published steps).map Prod.snd) =
              some after ∧
            after.Perm last.directory.store.toList) := by
  intro b last
  obtain ⟨hbegun, hsame⟩ := Subscriber.follows_begin? hbegin
  have hfollows : last.toSubscriber.Follows s.receiver.next (b.published steps) :=
    BusyDirectory.follows_run (b := b) hbegun steps
  have hperm : (b.made steps).Perm (b.published steps ++ last.unpublished) := b.perm_run steps
  have hfilter : ∀ kind, b.KeepsApart kind steps → (b.made steps).filter kind =
      (b.published steps).filter kind ++ last.unpublished.filter kind :=
    fun kind hapart => BusyDirectory.filter_run (b := b) (Nat.zero_le 1) hapart
  refine ⟨hperm, hfollows, hfilter, ?_⟩
  intro hapart hnone hlag hup
  obtain ⟨hstore, -⟩ := Store.represents_empty.run hreached
  rw [Nat.zero_add, ← hsame] at hstore
  obtain ⟨hreadable, made, registrations, hmade, hlast⟩ :=
    BusyDirectory.replay_run (b := b) hstore.listed steps
  rw [hnone, List.append_nil] at hperm
  have horder : ∀ id, ((b.published steps).map Prod.snd).filter (Change.concerns id) =
      ((b.made steps).map Prod.snd).filter (Change.concerns id) := by
    intro id
    have hid := hfilter _ (hapart id)
    rw [hnone, List.filter_nil, List.append_nil] at hid
    rw [List.filter_map, List.filter_map]
    exact congrArg (List.map Prod.snd) hid.symm
  obtain ⟨after, hafter, hlisted⟩ := Change.replay_of_same_order hmade horder
  refine ⟨?_, after, hsame ▸ hafter, hlisted.trans hlast.perm_toList⟩
  rw [hfollows.notices_eq hlag hup]
  exact Subscriber.mapM_change?_noticesOf fun one hone => hreadable one (hperm.mem_iff.mpr hone)

/-- Two sessions take out an entry each at the same time, and the notice of the second comes first. -/
theorem overlapped_of_two_removals :
    let first : Entry := { id := ⟨1⟩, name := "a", topic := "t", kind := .service, address := ⟨none, "c", 1⟩ }
    let second : Entry := { first with id := ⟨2⟩ }
    let store := ((Store.empty.perform (.register first)).2.perform (.register second)).2
    let directory : Directory := { store, feed := some { capacity := 4 } }
    let s : Subscriber := { directory := directory.subscribe.2, receiver := ⟨0⟩ }
    let b : BusyDirectory := { toSubscriber := s }
    let steps : List BusyDirectory.Step := [
      .apply 7 "\x7b'request':'unregister','id':'00000000-0000-0000-0000-000000000001'\x7d",
      .apply 8 "\x7b'request':'unregister','id':'00000000-0000-0000-0000-000000000002'\x7d",
      .publish 1, .publish 0, .receive, .receive]
    let last := b.run steps
    (Store.Run .empty [.register first, .register second] [.registered, .registered] directory.store ∧
      Subscriber.begin? directory = some s ∧
      (∀ id, b.KeepsApart (fun one => one.2.concerns id) steps) ∧ last.unpublished = [] ∧
      last.lagged = false ∧ last.IsCaughtUp) ∧
      (b.made steps).map (fun one => one.2.id) = [⟨1⟩, ⟨2⟩] ∧ last.notices.map (·.origin) = [8, 7] ∧
      ∃ after, Change.replay directory.store.toList ((b.published steps).map Prod.snd) = some after ∧
        after.Perm last.directory.store.toList := by
  intro first second store directory s b steps last
  have hreached : Store.Run .empty [.register first, .register second] [.registered, .registered]
      directory.store :=
    .cons (.refl _) (.once _) (.cons (.refl _) (.once _) (.nil _))
  have hbegin : Subscriber.begin? directory = some s := rfl
  have hruns : (last.unpublished = [] ∧ last.lagged = false ∧ last.IsCaughtUp) ∧
      (b.made steps).map (fun one => one.2.id) = [⟨1⟩, ⟨2⟩] ∧ last.notices.map (·.origin) = [8, 7] := by
    decide +kernel
  obtain ⟨⟨hnone, hlag, hup⟩, hmade, hnotices⟩ := hruns
  have hapart : ∀ id, b.KeepsApart (fun one => one.2.concerns id) steps := by
    refine BusyDirectory.keepsApart_of_nodup rfl ?_
    rw [hmade]
    decide
  obtain ⟨-, -, -, hreplay⟩ := overlapped_run hreached hbegin steps
  obtain ⟨-, after, hafter, hperm⟩ := hreplay hapart hnone hlag hup
  have hlast : last = BusyDirectory.run { toSubscriber := s } steps := rfl
  rw [← hlast] at hperm
  exact ⟨⟨hreached, hbegin, hapart, hnone, hlag, hup⟩, hmade, hnotices, after, hafter, hperm⟩

/-- **Notices may be stale.**  Two sessions give an entry another address at the same time, and the later
change is published before the earlier one.  A subscriber that misses nothing and makes the changes that
it is told ends with the address that was given first; the table has the other. -/
theorem stale_of_overlapping_updates :
    let entry : Entry := { id := ⟨1⟩, name := "a", topic := "t", kind := .service, address := ⟨none, "c", 1⟩ }
    let directory : Directory :=
      { store := (Store.empty.perform (.register entry)).2, feed := some { capacity := 4 } }
    let s : Subscriber := { directory := directory.subscribe.2, receiver := ⟨0⟩ }
    let b : BusyDirectory := { toSubscriber := s }
    let update := fun address : String => "\x7b'request':'update-address'," ++
      "'id':'00000000-0000-0000-0000-000000000001','address':'" ++ address ++ "'\x7d"
    let steps : List BusyDirectory.Step := [
      .apply 7 (update "a:1"), .apply 8 (update "b:2"), .publish 1, .publish 0, .receive, .receive]
    let last := b.run steps
    (Subscriber.begin? directory = some s ∧ last.unpublished = [] ∧ last.lagged = false ∧
      last.IsCaughtUp) ∧
      (b.made steps).map (fun one => (one.1, one.2.id)) = [(7, ⟨1⟩), (8, ⟨1⟩)] ∧
      last.notices.map (·.origin) = [8, 7] ∧
      ((last.notices.mapM Notice.change?).bind (Change.replay directory.store.toList)).map
        (·.map (·.address.toText)) = some ["a:1"] ∧
      last.directory.store.toList.map (·.address.toText) = ["b:2"] := by
  intro entry directory s b update steps last
  refine ⟨⟨rfl, ?_⟩, ?_⟩ <;> decide +kernel

end ServiceDirectory
