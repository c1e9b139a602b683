import Mathlib.Data.List.Infix
import ServiceDirectory.Proofs.Directory.Replay

/-!
# Notices are a log of the table

A subscriber that does not fall behind gets a notice for every change that is made after it subscribed,
once and in order, with the session that made it.  Making these changes on the listing at the time of
the subscription gives the listing at the end (`notices_replay`).

Two invariants carry the proof.  `Channel.Logs` says what a channel keeps of the messages sent since a
receiver subscribed: as many of the newest as its capacity, so a receiver that is not further behind
than that finds its next message.  `Store.Represents` says which list the table stands for; every change
is made on this list as well.
-/

namespace ServiceDirectory

/-! ## What a channel keeps -/

namespace Channel

variable {channel : Channel α} {start : Nat} {log : List α}

/-- The messages sent since a receiver subscribed, oldest first. -/
structure Logs (channel : Channel α) (start : Nat) (log : List α) : Prop where
  subscribed : 0 < channel.receivers
  sent : channel.sent = start + log.length
  kept : log.reverse.take channel.capacity <+: channel.kept

theorem logs_subscribe (channel : Channel α) : channel.subscribe.2.Logs channel.sent [] where
  subscribed := Nat.succ_pos _
  sent := rfl
  kept := by simp

theorem Logs.send (h : channel.Logs start log) (message : α) :
    (channel.send message).2.Logs start (log ++ [message]) := by
  have hreceivers : channel.receivers ≠ 0 := Nat.pos_iff_ne_zero.mp h.subscribed
  rw [Channel.send, if_neg hreceivers]
  refine ⟨h.subscribed, ?_, ?_⟩
  · simp only [h.sent, List.length_append, List.length_singleton]
    omega
  · rw [List.reverse_concat]
    cases hc : channel.capacity with
    | zero => simp
    | succ capacity =>
      -- the oldest message may go, the others move up by one
      have hkept := List.IsPrefix.take h.kept capacity
      rw [List.take_take, hc, Nat.min_eq_left (Nat.le_succ capacity)] at hkept
      simpa using hkept

theorem capacity_send (channel : Channel α) (message : α) :
    (channel.send message).2.capacity = channel.capacity := by
  unfold Channel.send
  split <;> rfl

/-- What a receiver gets that has read the first `n` of the messages. -/
theorem Logs.receive (h : channel.Logs start log) {n : Nat} (hn : n ≤ log.length) :
    channel.receive ⟨start + n⟩ =
      if channel.capacity < log.length - n then
        (.lagged (log.length - n - channel.capacity), ⟨channel.sent - channel.capacity⟩)
      else match log[n]? with
        | none => (.empty, ⟨start + n⟩)
        | some message => (.message message, ⟨start + (n + 1)⟩) := by
  have hunread : channel.unread ⟨start + n⟩ = log.length - n := by
    rw [unread, h.sent]
    show start + log.length - (start + n) = log.length - n
    omega
  simp only [Channel.receive, hunread]
  by_cases hlag : channel.capacity < log.length - n
  · rw [if_pos hlag, if_pos hlag]
  rw [if_neg hlag, if_neg hlag]
  cases hd : log.length - n with
  | zero =>
    have hnone : log[n]? = none := List.getElem?_eq_none (by omega)
    rw [hnone]
  | succ older =>
    -- the message stands at this place of those kept, counted from the newest
    have hkept : channel.kept[older]? = log[n]? := by
      have hold : older < (log.reverse.take channel.capacity).length := by
        rw [List.length_take, List.length_reverse]
        omega
      obtain ⟨rest, hrest⟩ := h.kept
      rw [← hrest, List.getElem?_append_left hold, List.getElem?_take_of_lt (by omega),
        List.getElem?_reverse (by omega)]
      congr 1
      omega
    obtain ⟨message, hsome⟩ : ∃ message, log[n]? = some message :=
      ⟨_, List.getElem?_eq_getElem (by omega)⟩
    simp only [hkept, hsome, Nat.add_assoc]

/-- The receiver of a channel gets the next message of the log. -/
theorem Logs.of_receive (h : channel.Logs start log) {n : Nat} (hn : n ≤ log.length) {message : α}
    {next : Receiver} (hr : channel.receive ⟨start + n⟩ = (.message message, next)) :
    log[n]? = some message ∧ next = ⟨start + (n + 1)⟩ := by
  rw [h.receive hn] at hr
  split at hr
  · cases hr
  · split at hr
    · cases hr
    · next hmessage =>
      cases hr
      exact ⟨hmessage, rfl⟩

/-- There is nothing to receive only behind the last message of the log. -/
theorem Logs.of_empty (h : channel.Logs start log) {n : Nat} (hn : n ≤ log.length)
    (hr : (channel.receive ⟨start + n⟩).1 = .empty) : n = log.length := by
  rw [h.receive hn] at hr
  split at hr
  · cases hr
  · split at hr
    · next hnone => exact Nat.le_antisymm hn (List.getElem?_eq_none_iff.mp hnone)
    · cases hr

end Channel

/-! ## Subscribers -/

namespace Directory

/-- A request of a session, as text. -/
abbrev Call : Type := SessionId × String

/-- The change that a text makes, if it makes one. -/
def changeOf (directory : Directory) (text : String) : Option Change :=
  (apply directory.policy directory.store (Request.parse directory.lenient text)).change

/-- The changes that requests make, one after the other, each with the session that made it. -/
def changes (directory : Directory) : List Call → List (SessionId × Change)
  | [] => []
  | (session, text) :: calls =>
    (directory.changeOf text).toList.map (fun change => (session, change)) ++
      changes (directory.handleText session text).2 calls

/-- The directory after requests. -/
def afterCalls (directory : Directory) (calls : List Call) : Directory :=
  calls.foldl (fun directory call => (directory.handleText call.1 call.2).2) directory

end Directory

/-- A directory with one of its subscribers. -/
structure Subscriber where
  directory : Directory
  receiver : Receiver
  /-- The notices received, oldest first. -/
  notices : List Notice := []
  /-- Some notices were missed. -/
  lagged : Bool := false

/-- What happens after the subscription. -/
inductive Subscriber.Event where
  /-- A session sends a request. -/
  | handle (session : SessionId) (text : String)
  /-- The subscriber looks for its next notice. -/
  | receive

namespace Subscriber

/-- Subscribe to the notices of a directory, where they are on. -/
def begin? (directory : Directory) : Option Subscriber :=
  match directory.subscribe with
  | (none, _) => none
  | (some receiver, directory) => some { directory, receiver }

/-- Take what the channel gives. -/
def accept (s : Subscriber) : Received Notice × Receiver → Subscriber
  | (.message notice, receiver) => { s with receiver, notices := s.notices ++ [notice] }
  | (.empty, receiver) => { s with receiver }
  | (.lagged _, receiver) => { s with receiver, lagged := true }

/-- Look for the next notice. -/
def receive (s : Subscriber) : Subscriber :=
  match s.directory.feed with
  | none => s
  | some channel => s.accept (channel.receive s.receiver)

/-- What comes of an event. -/
def step (s : Subscriber) : Event → Subscriber
  | .handle session text => { s with directory := (s.directory.handleText session text).2 }
  | .receive => s.receive

/-- What comes of events, one after the other. -/
def run (s : Subscriber) (events : List Event) : Subscriber := events.foldl step s

/-- The requests among events. -/
def calls (events : List Event) : List Directory.Call :=
  events.filterMap fun
    | .handle session text => some (session, text)
    | .receive => none

/-- There is nothing to receive at present. -/
def IsCaughtUp (s : Subscriber) : Prop :=
  ∃ channel ∈ s.directory.feed, (channel.receive s.receiver).1 = .empty

instance (s : Subscriber) : Decidable s.IsCaughtUp := by
  unfold IsCaughtUp; infer_instance

/-! ## The invariant -/

/-- The notices of changes. -/
def noticesOf (log : List (SessionId × Change)) : List Notice :=
  log.map fun made => made.2.notice made.1

/-- A subscriber has received the first of the notices of a log, unless it fell behind, and the channel
holds the others. -/
structure Follows (s : Subscriber) (start : Nat) (log : List (SessionId × Change)) : Prop where
  channel : ∃ channel ∈ s.directory.feed, channel.Logs start (noticesOf log)
  received : s.lagged = false →
    s.receiver = ⟨start + s.notices.length⟩ ∧ s.notices <+: noticesOf log

variable {s : Subscriber} {start : Nat} {log : List (SessionId × Change)}

theorem directory_accept (s : Subscriber) (given : Received Notice × Receiver) :
    (s.accept given).directory = s.directory := by
  rcases given with ⟨_ | _ | _, receiver⟩ <;> rfl

theorem directory_receive (s : Subscriber) : s.receive.directory = s.directory := by
  rw [Subscriber.receive]
  split
  · rfl
  · exact directory_accept s _

theorem lagged_of_accept {given : Received Notice × Receiver} (h : (s.accept given).lagged = false) :
    s.lagged = false := by
  rcases given with ⟨_ | _ | _, receiver⟩
  · exact h
  · exact h
  · exact nomatch h

/-- The next notice is that of the next change. -/
theorem Follows.receive (h : s.Follows start log) : s.receive.Follows start log := by
  obtain ⟨⟨channel, hfeed, hlogs⟩, hreceived⟩ := h
  have haccept : s.receive = s.accept (channel.receive s.receiver) := by
    rw [Subscriber.receive, (hfeed : s.directory.feed = some channel)]
  rw [haccept]
  refine ⟨⟨channel, by rw [directory_accept]; exact hfeed, hlogs⟩, ?_⟩
  intro hlag
  obtain ⟨hreceiver, hfront⟩ := hreceived (lagged_of_accept hlag)
  -- the receiver stands behind the notices received, so it is given the next of the log
  have hnext := hlogs.receive hfront.length_le
  rw [← hreceiver] at hnext
  rw [hnext] at hlag ⊢
  by_cases hbehind : channel.capacity < (noticesOf log).length - s.notices.length
  · rw [if_pos hbehind] at hlag
    cases hlag
  rw [if_neg hbehind]
  cases hmessage : (noticesOf log)[s.notices.length]? with
  | none => exact ⟨hreceiver, hfront⟩
  | some notice =>
    refine ⟨by simp [accept], ?_⟩
    obtain ⟨rest, hrest⟩ := hfront
    rw [← hrest, List.getElem?_append_right (Nat.le_refl _), Nat.sub_self,
      ← List.head?_eq_getElem?] at hmessage
    obtain ⟨tail, rfl⟩ := List.head?_eq_some_iff.mp hmessage
    exact ⟨tail, by rw [← hrest]; simp [accept]⟩

/-- A change that is published adds its notice to the log. -/
theorem Follows.publish (h : s.Follows start log) (session : SessionId) (change : Change) :
    Follows { s with directory := (s.directory.publish session change).2 } start
      (log ++ [(session, change)]) := by
  obtain ⟨⟨channel, hfeed, hlogs⟩, hreceived⟩ := h
  have hfeed' : s.directory.feed = some channel := hfeed
  have hlog : noticesOf (log ++ [(session, change)]) = noticesOf log ++ [change.notice session] := by
    simp [noticesOf]
  refine ⟨⟨(channel.send (change.notice session)).2, ?_, ?_⟩, fun hlag => ?_⟩
  · simp [Directory.publish, hfeed']
  · rw [hlog]
    exact hlogs.send _
  · obtain ⟨hreceiver, hfront⟩ := hreceived hlag
    refine ⟨hreceiver, ?_⟩
    rw [hlog]
    exact hfront.trans (List.prefix_append _ _)

/-- Another table is nothing to a subscriber. -/
theorem Follows.withStore (h : s.Follows start log) (store : Store) :
    Follows { s with directory := { s.directory with store } } start log :=
  ⟨h.channel, h.received⟩

/-- A change adds its notice to the log. -/
theorem Follows.handle (h : s.Follows start log) (session : SessionId) (text : String) :
    (s.step (.handle session text)).Follows start
      (log ++ (s.directory.changeOf text).toList.map fun change => (session, change)) := by
  simp only [step, Directory.handleText, Directory.handle, Directory.changeOf]
  generalize Directory.apply s.directory.policy s.directory.store _ = applied
  cases hc : applied.change with
  | none =>
    simp only [Option.toList_none, List.map_nil, List.append_nil]
    exact h.withStore applied.store
  | some change => exact (h.withStore applied.store).publish session change

/-- **The run**: a subscriber follows the log of all changes. -/
theorem Follows.run (h : s.Follows start log) (events : List Event) :
    (s.run events).Follows start (log ++ s.directory.changes (calls events)) ∧
      (s.run events).directory = s.directory.afterCalls (calls events) := by
  -- a request adds its change to the log; looking for a notice leaves log and directory as they are
  induction events generalizing s log with
  | nil =>
    refine ⟨?_, rfl⟩
    show s.Follows start (log ++ [])
    rwa [List.append_nil]
  | cons event events ih =>
    cases event with
    | receive =>
      have hrest := ih h.receive
      rw [directory_receive] at hrest
      exact hrest
    | handle session text =>
      obtain ⟨hfollows, hdirectory⟩ := ih (h.handle session text)
      refine ⟨?_, hdirectory⟩
      show (run _ events).Follows start (log ++ (_ ++ _))
      rw [← List.append_assoc]
      exact hfollows

/-- A subscriber that has caught up without falling behind has received the whole log. -/
theorem Follows.notices_eq (h : s.Follows start log) (hlag : s.lagged = false)
    (hup : s.IsCaughtUp) : s.notices = noticesOf log := by
  obtain ⟨⟨channel, hfeed, hlogs⟩, hreceived⟩ := h
  obtain ⟨hreceiver, hfront⟩ := hreceived hlag
  obtain ⟨other, hother, hempty⟩ := hup
  obtain rfl : channel = other := Option.some.inj (hfeed.symm.trans hother)
  rw [hreceiver] at hempty
  exact hfront.eq_of_length (hlogs.of_empty hfront.length_le hempty)

end Subscriber

/-! ## The changes and the table -/

theorem Change.replay_append (ledger : List Entry) (first second : List Change) :
    replay ledger (first ++ second) =
      (replay ledger first).bind fun between => replay between second := by
  rw [replay, List.foldlM_append]
  rfl

namespace Directory

variable {directory : Directory} {registrations : Nat} {ledger : List Entry}

theorem store_handleText (directory : Directory) (session : SessionId) (text : String) :
    (directory.handleText session text).2.store =
      (apply directory.policy directory.store (Request.parse directory.lenient text)).store := by
  rw [handleText, handle]
  generalize apply directory.policy directory.store _ = applied
  cases applied.change with
  | none => rfl
  | some change =>
    simp only [publish]
    split <;> rfl

/-- **One request.**  The change that it makes, if any, can be read from its notice, and making it on
the list that the table stands for gives the list that the table stands for afterwards. -/
theorem replay_handleText (h : directory.store.Represents registrations ledger)
    (session : SessionId) (text : String) :
    (∀ change ∈ directory.changeOf text, change.Readable) ∧
      ∃ after, Change.replay ledger (directory.changeOf text).toList = some after ∧
        Store.Represents (directory.handleText session text).2.store
          (registrations + (directory.changeOf text).toList.countP Change.isRegistration) after := by
  have hdoes := does_apply h directory.policy (Request.parse directory.lenient text)
  rw [store_handleText, changeOf]
  generalize apply directory.policy directory.store _ = applied at hdoes
  cases hdoes with
  | nothing response =>
    refine ⟨?_, ledger, rfl, h⟩
    intro change hchange
    cases hchange
  | @change response change next after readable applies represents =>
    refine ⟨?_, after, ?_, represents⟩
    · intro other ho
      obtain rfl := Option.some.inj ho
      exact readable
    · simp [Change.replay, applies]

/-- **Many requests.**  Their changes can be read from their notices, and making them one after the
other on the list that the table stands for gives the list that the table stands for afterwards. -/
theorem replay_afterCalls (h : directory.store.Represents registrations ledger) (calls : List Call) :
    let made := directory.changes calls
    (∀ one ∈ made, one.2.Readable) ∧
      ∃ after, Change.replay ledger (made.map Prod.snd) = some after ∧
        (directory.afterCalls calls).store.Represents
          (registrations + (made.map Prod.snd).countP Change.isRegistration) after := by
  induction calls generalizing directory registrations ledger with
  | nil => exact ⟨nofun, ledger, rfl, h⟩
  | cons call calls ih =>
    obtain ⟨session, text⟩ := call
    intro made
    have hmade : made.map Prod.snd = (directory.changeOf text).toList ++
        ((directory.handleText session text).2.changes calls).map Prod.snd := by
      simp [made, changes, Function.comp_def]
    obtain ⟨hreadable, between, hbetween, hnext⟩ := replay_handleText h session text
    obtain ⟨hreadable', after, hafter, hlast⟩ := ih hnext
    rw [hmade, List.countP_append, ← Nat.add_assoc, Change.replay_append, hbetween]
    refine ⟨?_, after, hafter, hlast⟩
    intro one ho
    rcases List.mem_append.mp ho with ho | ho
    · obtain ⟨change, hc, rfl⟩ := List.mem_map.mp ho
      exact hreadable change (Option.mem_toList.mp hc)
    · exact hreadable' one ho

end Directory

namespace Subscriber

variable {s : Subscriber} {start : Nat} {log : List (SessionId × Change)}

theorem follows_begin? {directory : Directory} (h : begin? directory = some s) :
    s.Follows s.receiver.next [] ∧ s.directory.store = directory.store := by
  rw [begin?] at h
  cases hf : directory.feed with
  | none => simp [Directory.subscribe, hf] at h
  | some channel =>
    simp only [Directory.subscribe, hf] at h
    obtain rfl := Option.some.inj h
    refine ⟨⟨⟨channel.subscribe.2, rfl, channel.logs_subscribe⟩, fun _ => ⟨rfl, ?_⟩⟩, rfl⟩
    exact List.prefix_refl _

/-- What the notices of a log tell. -/
theorem mapM_change?_noticesOf (h : ∀ made ∈ log, made.2.Readable) :
    (noticesOf log).mapM Notice.change? = some (log.map Prod.snd) := by
  induction log with
  | nil => rfl
  | cons made log ih =>
    have hrest := ih fun other ho => h other (List.mem_cons_of_mem _ ho)
    rw [noticesOf] at hrest ⊢
    rw [List.map_cons, List.mapM_cons, hrest, Change.change?_notice (h made List.mem_cons_self)]
    rfl

end Subscriber

/-- **Notices are a log of the table.**  From any table that can be reached, whatever requests are
handled after a subscription, and whenever the subscriber looks for notices: once it has caught up
without having missed one, its notices are those of the changes that the requests made, each with the
session that made it.  The changes read from them fit the listing at the time of the subscription one
after the other, and give the entries listed at the end, in the order of this listing.

Only the order depends on the numbers of registrations.  These are words of 64 bits: once they start
again from zero, new entries are listed before old ones. -/
theorem notices_replay {operations : List Store.Operation} {answers : List Store.Answer}
    {directory : Directory} {s : Subscriber}
    (hreached : Store.Run .empty operations answers directory.store)
    (hbegin : Subscriber.begin? directory = some s) (events : List Subscriber.Event)
    (hlag : (s.run events).lagged = false) (hup : (s.run events).IsCaughtUp) :
    let made := s.directory.changes (Subscriber.calls events)
    (s.run events).notices.map (·.origin) = made.map Prod.fst ∧
      (s.run events).notices.mapM Notice.change? = some (made.map Prod.snd) ∧
      ∃ after, Change.replay directory.store.toList (made.map Prod.snd) = some after ∧
        after.Perm (s.run events).directory.store.toList ∧
        (answers.count .registered + (made.map Prod.snd).countP Change.isRegistration < 2 ^ 64 →
          after = (s.run events).directory.store.toList) := by
  intro made
  obtain ⟨hfollows, hsame⟩ := Subscriber.follows_begin? hbegin
  obtain ⟨hlast, hdirectory⟩ := hfollows.run events
  rw [List.nil_append] at hlast
  obtain ⟨hstore, -⟩ := Store.represents_empty.run hreached
  rw [Nat.zero_add, ← hsame] at hstore
  obtain ⟨hreadable, after, hafter, hrepresents⟩ :=
    s.directory.replay_afterCalls hstore.listed (Subscriber.calls events)
  rw [hlast.notices_eq hlag hup, hdirectory, ← hsame]
  refine ⟨?_, Subscriber.mapM_change?_noticesOf hreadable, after, hafter, hrepresents.perm_toList, ?_⟩
  · rw [Subscriber.noticesOf, List.map_map]
    rfl
  · intro hfew
    exact (hrepresents.toList hfew).symm

/-- An entry comes and goes, the first by the session 7 and the second by the session 8. -/
theorem notices_of_passing_entry :
    let directory : Directory := { feed := some { capacity := 4 } }
    let s : Subscriber := { directory := directory.subscribe.2, receiver := ⟨0⟩ }
    let id := "00000000-0000-0000-0000-000000000001"
    let events : List Subscriber.Event := [
      .handle 7 ("\x7b'request':'register','entry':\x7b'id':'" ++ id ++
        "','name':'a','topic':'clock','type':'service','address':'TCP://host:080'\x7d\x7d"),
      .receive,
      .handle 8 ("\x7b'request':'unregister','id':'" ++ id ++ "'\x7d"),
      .receive]
    let made := s.directory.changes (Subscriber.calls events)
    (Store.Run .empty [] [] directory.store ∧ Subscriber.begin? directory = some s ∧
      (s.run events).lagged = false ∧ (s.run events).IsCaughtUp) ∧
      (s.run events).notices.map (·.origin) = [7, 8] ∧
      (s.run events).notices.mapM Notice.change? = some (made.map Prod.snd) ∧
      Change.replay directory.store.toList (made.map Prod.snd) = some [] := by
  intro directory s id events made
  have hreached : Store.Run .empty [] [] directory.store := .nil _
  have hbegin : Subscriber.begin? directory = some s := rfl
  have hrun : (made.map Prod.fst = [7, 8] ∧ (made.map Prod.snd).countP Change.isRegistration = 1) ∧
      ((s.run events).lagged = false ∧ (s.run events).IsCaughtUp) ∧
      (s.run events).directory.store.toList = [] := by decide +kernel
  obtain ⟨⟨hsessions, hcount⟩, ⟨hlag, hup⟩, hlist⟩ := hrun
  obtain ⟨horigins, hchanges, after, hreplay, -, hordered⟩ :=
    notices_replay hreached hbegin events hlag hup
  have hafter : after = [] := by
    rw [← hlist]
    refine hordered ?_
    show 0 + (made.map Prod.snd).countP Change.isRegistration < 2 ^ 64
    rw [hcount]
    decide
  refine ⟨⟨hreached, hbegin, hlag, hup⟩, horigins.trans hsessions, hchanges, ?_⟩
  rw [hreplay, hafter]

end ServiceDirectory
