import Mathlib.Data.List.Induction
import ServiceDirectory.Proofs.Directory.Transcript

/-!
# Subscribers that fall behind

Any number of subscribers listen to the notices of one directory.  They join at any time and look for
their next notice as seldom as they like, and the channel keeps the newest notices only.  Still nothing is
lost without a word: what a subscriber was given tells of the changes made since it joined, each once and
in order, as a notice or in one report of so many missed ones; the others are still to come
(`accounted_run`).

`TellsOf` is the account: which messages a list of things given speaks of.  The invariant
(`Audience.Hears`) ties it to the position of the receiver: a receiver stands behind the messages that it
was told of, and the channel holds the newest of those sent since it joined.
-/

namespace ServiceDirectory

open Subscriber (noticesOf)

/-! ## What a receiver is told -/

/-- What a receiver was given, one thing after the other, tells of these messages: of each of them once
and in order, by the message itself or by a report that counts it among those missed. -/
inductive TellsOf : List (Received α) → List α → Prop
  | nothing : TellsOf [] []
  | message {given : List (Received α)} {told : List α} (before : TellsOf given told) (message : α) :
    TellsOf (given ++ [.message message]) (told ++ [message])
  | empty {given : List (Received α)} {told : List α} (before : TellsOf given told) :
    TellsOf (given ++ [.empty]) told
  | lagged {given : List (Received α)} {told : List α} (before : TellsOf given told) (missed : List α)
    (some_missed : missed ≠ []) : TellsOf (given ++ [.lagged missed.length]) (told ++ missed)

namespace Received

/-- The first of some messages, if there is one. -/
def front : List α → Received α
  | [] => .empty
  | first :: _ => .message first

/-- What a channel that keeps so many messages has for a receiver with these before it: the first of
them, or, where there are more than it keeps, how many those are that it has not kept. -/
def next (capacity : Nat) (pending : List α) : Received α :=
  if capacity < pending.length then .lagged (pending.length - capacity) else front pending

/-- How many messages a receiver is told of by what it is given. -/
def count : Received α → Nat
  | message _ => 1
  | empty => 0
  | lagged missed => missed

variable {capacity : Nat} {pending : List α}

theorem next_of_lt (h : capacity < pending.length) :
    next capacity pending = .lagged (pending.length - capacity) :=
  if_pos h

theorem next_of_not_lt (h : ¬ capacity < pending.length) :
    next capacity pending = front pending :=
  if_neg h

end Received

theorem TellsOf.next {given : List (Received α)} {told : List α} (h : TellsOf given told)
    (capacity : Nat) (pending : List α) :
    TellsOf (given ++ [Received.next capacity pending])
      (told ++ pending.take (Received.next capacity pending).count) := by
  by_cases hlag : capacity < pending.length
  · rw [Received.next_of_lt hlag]
    have hlength : (pending.take (pending.length - capacity)).length = pending.length - capacity := by
      rw [List.length_take]
      omega
    have hmissed := h.lagged (pending.take (pending.length - capacity)) (by
      rintro hnone
      rw [hnone, List.length_nil] at hlength
      omega)
    rwa [hlength] at hmissed
  · rw [Received.next_of_not_lt hlag]
    cases pending with
    | nil =>
      show TellsOf _ (told ++ [])
      rw [List.append_nil]
      exact h.empty
    | cons message pending => exact h.message message

/-! ## What the channel has for a receiver -/

namespace Channel

variable {channel : Channel α} {start : Nat} {told pending log : List α}

/-- A receiver that stands behind the messages that it was told of is given what comes next, and then
stands behind that. -/
theorem Logs.receive_next (h : channel.Logs start (told ++ pending)) :
    channel.receive ⟨start + told.length⟩ =
      (Received.next channel.capacity pending,
        ⟨start + (told ++ pending.take (Received.next channel.capacity pending).count).length⟩) := by
  rw [h.receive (by rw [List.length_append]; omega)]
  have hpending : (told ++ pending).length - told.length = pending.length := by
    rw [List.length_append]
    omega
  rw [hpending, List.getElem?_append_right (Nat.le_refl _), Nat.sub_self]
  by_cases hlag : channel.capacity < pending.length
  · rw [if_pos hlag, Received.next_of_lt hlag, h.sent]
    simp only [Received.count, List.length_append, List.length_take]
    congr 2
    omega
  · rw [if_neg hlag, Received.next_of_not_lt hlag]
    cases pending with
    | nil => simp [Received.front, Received.count]
    | cons message pending => simp [Received.front, Received.count]

theorem Logs.subscribe (h : channel.Logs start log) : channel.subscribe.2.Logs start log :=
  ⟨Nat.succ_pos _, h.sent, h.kept⟩

theorem Logs.sendAll (h : channel.Logs start log) (messages : List α) :
    (channel.sendAll messages).Logs start (log ++ messages) := by
  induction messages generalizing channel log with
  | nil => rwa [List.append_nil]
  | cons message messages ih =>
    have hrest := ih (h.send message)
    rwa [List.append_assoc] at hrest

theorem capacity_sendAll (channel : Channel α) (messages : List α) :
    (channel.sendAll messages).capacity = channel.capacity := by
  induction messages generalizing channel with
  | nil => rfl
  | cons message messages ih => exact (ih _).trans (channel.capacity_send message)

end Channel

/-! ## An audience -/

/-- A subscriber that keeps what it is given. -/
structure Listener where
  receiver : Receiver
  /-- What it was given each time that it looked, oldest first. -/
  given : List (Received Notice) := []

/-- A directory and those who have subscribed to its notices, in the order in which they did. -/
structure Audience where
  directory : Directory
  listeners : List Listener := []

/-- What happens to a directory and its subscribers. -/
inductive Audience.Event where
  /-- Somebody subscribes. -/
  | subscribe
  /-- A session sends a request. -/
  | handle (session : SessionId) (text : String)
  /-- A subscriber looks for its next notice. -/
  | receive (listener : Nat)
  deriving DecidableEq

namespace Audience

/-- What a subscriber is given when it looks, and the subscriber afterwards. -/
def look (channel : Channel Notice) (l : Listener) : Received Notice × Listener :=
  let (received, receiver) := channel.receive l.receiver
  (received, { receiver, given := l.given ++ [received] })

/-- What comes of an event. -/
def step (a : Audience) : Event → Audience
  | .subscribe =>
    match a.directory.subscribe with
    | (none, _) => a
    | (some receiver, directory) => { directory, listeners := a.listeners ++ [{ receiver }] }
  | .handle session text => { a with directory := (a.directory.handleText session text).2 }
  | .receive i =>
    match a.listeners[i]?, a.directory.feed with
    | some l, some channel => { a with listeners := a.listeners.set i (look channel l).2 }
    | _, _ => a

/-- What comes of events, one after the other. -/
def run (a : Audience) (events : List Event) : Audience := events.foldl step a

/-- A directory that publishes its changes, before anybody has subscribed. -/
def start (directory : Directory) : Audience := { directory := directory.withNotices }

/-- What a subscriber would be given if it looked now. -/
def next? (a : Audience) (i : Nat) : Option (Received Notice) :=
  match a.listeners[i]?, a.directory.feed with
  | some l, some channel => some (look channel l).1
  | _, _ => none

/-- The change that an event makes, with the session that made it. -/
def made (a : Audience) : Event → List (SessionId × Change)
  | .handle session text => (a.directory.changeOf text).toList.map fun change => (session, change)
  | _ => []

/-- The changes that are made while a subscriber is there. -/
def changesSince (i : Nat) (a : Audience) : List Event → List (SessionId × Change)
  | [] => []
  | event :: events =>
    (if i < a.listeners.length then a.made event else []) ++ changesSince i (a.step event) events

theorem run_concat (a : Audience) (events : List Event) (event : Event) :
    a.run (events ++ [event]) = (a.run events).step event :=
  List.foldl_append

theorem changesSince_concat (i : Nat) (a : Audience) (events : List Event) (event : Event) :
    a.changesSince i (events ++ [event]) = a.changesSince i events ++
      (if i < (a.run events).listeners.length then (a.run events).made event else []) := by
  induction events generalizing a with
  | nil => exact List.append_nil _
  | cons first events ih =>
    show _ ++ (a.step first).changesSince i (events ++ [event]) = _
    rw [ih, ← List.append_assoc]
    rfl

/-! ## The invariant -/

variable {a : Audience} {i : Nat} {l : Listener} {capacity first : Nat} {told pending : List Notice}

/-- A subscriber was told of the first of the notices since it joined, and stands before the others; the
channel holds the newest of them all. -/
structure Hears (a : Audience) (i : Nat) (l : Listener) (capacity first : Nat)
    (told pending : List Notice) : Prop where
  listener : a.listeners[i]? = some l
  channel : ∃ channel, a.directory.feed = some channel ∧ channel.capacity = capacity ∧
    channel.Logs first (told ++ pending)
  receiver_eq : l.receiver = ⟨first + told.length⟩
  tells : TellsOf l.given told

/-- What is next for a subscriber. -/
theorem Hears.look (h : a.Hears i l capacity first told pending) :
    ∃ channel, a.directory.feed = some channel ∧
      Audience.look channel l = (.next capacity pending,
        { receiver := ⟨first + (told ++ pending.take (Received.next capacity pending).count).length⟩
          given := l.given ++ [.next capacity pending] }) := by
  obtain ⟨channel, hfeed, hcapacity, hlogs⟩ := h.channel
  refine ⟨channel, hfeed, ?_⟩
  rw [Audience.look, h.receiver_eq, hlogs.receive_next, hcapacity]

theorem Hears.next? (h : a.Hears i l capacity first told pending) :
    a.next? i = some (.next capacity pending) := by
  obtain ⟨channel, hfeed, hlook⟩ := h.look
  simp only [Audience.next?, h.listener, hfeed, hlook]

/-- A subscriber that looks is told of what comes next. -/
theorem Hears.receive (h : a.Hears i l capacity first told pending) :
    let n := (Received.next capacity pending).count
    ∃ l', (a.step (.receive i)).Hears i l' capacity first (told ++ pending.take n)
      (pending.drop n) := by
  intro n
  obtain ⟨channel, hfeed, hlook⟩ := h.look
  have hstep : a.step (.receive i) =
      { a with listeners := a.listeners.set i (Audience.look channel l).2 } := by
    simp only [step, h.listener, hfeed]
  rw [hstep, hlook]
  refine ⟨_, List.getElem?_set_self (List.getElem?_eq_some_iff.mp h.listener).1, ?_, rfl, ?_⟩
  · rw [List.append_assoc, List.take_append_drop]
    exact h.channel
  · exact h.tells.next capacity pending

/-- Whatever else happens, a change is added to what comes next. -/
theorem Hears.step (h : a.Hears i l capacity first told pending) {event : Event}
    (hother : event ≠ .receive i) :
    (a.step event).Hears i l capacity first told (pending ++ noticesOf (a.made event)) := by
  obtain ⟨channel, hfeed, hcapacity, hlogs⟩ := h.channel
  have hlt := (List.getElem?_eq_some_iff.mp h.listener).1
  cases event with
  | subscribe =>
    have hstep : a.step .subscribe =
        { directory := { a.directory with feed := some channel.subscribe.2 }
          listeners := a.listeners ++ [{ receiver := channel.subscribe.1 }] } := by
      simp only [Audience.step, Directory.subscribe, hfeed]
    rw [hstep]
    refine ⟨?_, ⟨_, rfl, hcapacity, ?_⟩, h.receiver_eq, h.tells⟩
    · show (a.listeners ++ _)[i]? = some l
      rw [List.getElem?_append_left hlt]
      exact h.listener
    · show channel.subscribe.2.Logs first (told ++ (pending ++ []))
      rw [List.append_nil]
      exact hlogs.subscribe
  | handle session text =>
    have hnotices : a.directory.published (session, text) =
        noticesOf (a.made (.handle session text)) := by
      simp only [Directory.published, hfeed, Option.isSome_some, if_true, noticesOf, made, List.map_map]
      rfl
    have hfeed' := a.directory.feed_handleText (session, text)
    rw [hfeed, hnotices] at hfeed'
    refine ⟨h.listener, ⟨_, hfeed', ?_, ?_⟩, h.receiver_eq, h.tells⟩
    · exact (channel.capacity_sendAll _).trans hcapacity
    · rw [← List.append_assoc]
      exact hlogs.sendAll _
  | receive j =>
    have hne : j ≠ i := fun heq => hother (heq ▸ rfl)
    have hkept : noticesOf (a.made (.receive j)) = [] := rfl
    rw [hkept, List.append_nil]
    simp only [Audience.step]
    split
    · exact ⟨(List.getElem?_set_ne hne).trans h.listener, h.channel, h.receiver_eq, h.tells⟩
    · exact h

/-- As long as the subscriber does not look, all changes are added to what comes next. -/
theorem Hears.run_others (h : a.Hears i l capacity first told pending) {events : List Event}
    (hother : .receive i ∉ events) :
    (a.run events).Hears i l capacity first told (pending ++ noticesOf (a.changesSince i events)) := by
  induction events generalizing a pending with
  | nil => exact (List.append_nil pending).symm ▸ h
  | cons event events ih =>
    have hlt := (List.getElem?_eq_some_iff.mp h.listener).1
    have hstep := h.step fun heq : event = .receive i => hother (heq ▸ List.mem_cons_self)
    have hrest := ih hstep fun hmem => hother (List.mem_cons_of_mem _ hmem)
    have hchanges : a.changesSince i (event :: events) =
        a.made event ++ (a.step event).changesSince i events := by
      rw [changesSince, if_pos hlt]
    rw [hchanges, noticesOf, List.map_append, ← List.append_assoc]
    exact hrest

/-- Whoever subscribes was told of nothing, and nothing is before it. -/
theorem hears_subscribe {channel : Channel Notice} (hfeed : a.directory.feed = some channel)
    (hcapacity : channel.capacity = capacity) :
    ∃ l, (a.step .subscribe).Hears a.listeners.length l capacity channel.sent [] [] := by
  have hstep : a.step .subscribe =
      { directory := { a.directory with feed := some channel.subscribe.2 }
        listeners := a.listeners ++ [{ receiver := channel.subscribe.1 }] } := by
    simp only [step, Directory.subscribe, hfeed]
  rw [hstep]
  refine ⟨{ receiver := channel.subscribe.1 }, ?_, ⟨_, rfl, hcapacity, channel.logs_subscribe⟩, rfl,
    .nothing⟩
  exact List.getElem?_concat_length

/-- The channel stays, and keeps as many notices as before. -/
theorem feed_step {channel : Channel Notice} (hfeed : a.directory.feed = some channel)
    (event : Event) :
    ∃ after, (a.step event).directory.feed = some after ∧ after.capacity = channel.capacity := by
  cases event with
  | subscribe => exact ⟨channel.subscribe.2, by simp only [step, Directory.subscribe, hfeed], rfl⟩
  | handle session text =>
    have hsent := a.directory.feed_handleText (session, text)
    rw [hfeed] at hsent
    exact ⟨_, hsent, channel.capacity_sendAll _⟩
  | receive i =>
    refine ⟨channel, ?_, rfl⟩
    simp only [step]
    split <;> exact hfeed

/-- A subscriber joins by subscribing, behind those who are there. -/
theorem listener_of_step {event : Event} (habsent : a.listeners[i]? = none)
    (hl : (a.step event).listeners[i]? = some l) :
    event = .subscribe ∧ i = a.listeners.length := by
  have hlength : a.listeners.length ≤ i := List.getElem?_eq_none_iff.mp habsent
  have hlt := (List.getElem?_eq_some_iff.mp hl).1
  cases event with
  | subscribe =>
    simp only [step] at hlt
    split at hlt
    · omega
    · rw [List.length_append, List.length_singleton] at hlt
      exact ⟨rfl, by omega⟩
  | handle session text =>
    simp only [step] at hlt
    omega
  | receive j =>
    simp only [step] at hlt
    split at hlt
    · rw [List.length_set] at hlt
      omega
    · omega

/-- **Every step keeps it so**: a subscriber stays, and what it was told of and what is still to come are
together what they were before and what was made in the step. -/
theorem Hears.after (h : a.Hears i l capacity first told pending) (event : Event) :
    ∃ l' told' pending', (a.step event).Hears i l' capacity first told' pending' ∧
      told ++ pending ++ noticesOf (a.made event) = told' ++ pending' := by
  by_cases hlooks : event = .receive i
  · subst hlooks
    obtain ⟨l', hhears⟩ := h.receive
    refine ⟨l', _, _, hhears, ?_⟩
    show told ++ pending ++ [] = _
    rw [List.append_nil, List.append_assoc, List.take_append_drop]
  · exact ⟨l, _, _, h.step hlooks, List.append_assoc _ _ _⟩

/-! ## Runs -/

/-- **The run**: every subscriber hears of all changes since it joined. -/
theorem hears_run (directory : Directory) (events : List Event) (i : Nat) :
    let a := (start directory).run events
    let capacity := (max directory.policy.noticeCapacity 1).nextPowerOfTwo
    let log := noticesOf ((start directory).changesSince i events)
    (∃ channel, a.directory.feed = some channel ∧ channel.capacity = capacity) ∧
      (a.listeners[i]? = none → log = []) ∧
      ∀ l, a.listeners[i]? = some l →
        ∃ first told pending, a.Hears i l capacity first told pending ∧ log = told ++ pending := by
  intro a capacity log
  induction events using List.reverseRecOn with
  | nil => exact ⟨⟨_, rfl, rfl⟩, fun _ => rfl, fun l hl => nomatch hl⟩
  | append_singleton events event ih =>
    obtain ⟨⟨channel, hfeed, hcapacity⟩, hnone, hsome⟩ := ih
    have ha : a = ((start directory).run events).step event := run_concat _ _ _
    have hlog : log = noticesOf ((start directory).changesSince i events) ++
        noticesOf (if i < ((start directory).run events).listeners.length
          then ((start directory).run events).made event else []) := by
      show noticesOf _ = _
      rw [changesSince_concat, noticesOf, List.map_append]
      rfl
    rw [ha, hlog]
    clear_value a log
    generalize (start directory).run events = before at *
    generalize noticesOf ((start directory).changesSince i events) = earlier at *
    obtain ⟨after, hfeed', hcapacity'⟩ := feed_step hfeed event
    refine ⟨⟨after, hfeed', hcapacity'.trans hcapacity⟩, ?_⟩
    cases hl : before.listeners[i]? with
    | none =>
      have hlength := List.getElem?_eq_none_iff.mp hl
      rw [if_neg (by omega), hnone hl]
      refine ⟨fun _ => rfl, fun l hl' => ?_⟩
      obtain ⟨rfl, rfl⟩ := listener_of_step hl hl'
      obtain ⟨l', hhears⟩ := hears_subscribe hfeed hcapacity
      obtain rfl := Option.some.inj (hhears.listener.symm.trans hl')
      exact ⟨_, [], [], hhears, rfl⟩
    | some l =>
      have hlt := (List.getElem?_eq_some_iff.mp hl).1
      rw [if_pos hlt]
      obtain ⟨first, told, pending, hhears, rfl⟩ := hsome l hl
      obtain ⟨l', told', pending', hhears', heq⟩ := hhears.after event
      refine ⟨fun hgone => ?_, fun l hl => ?_⟩
      · rw [hhears'.listener] at hgone
        cases hgone
      · obtain rfl := Option.some.inj (hhears'.listener.symm.trans hl)
        exact ⟨first, told', pending', hhears', heq⟩

end Audience

open Audience in
/-- **No change is lost without a word.**  Whatever the directory and the capacity set for its notices,
whoever subscribes and looks whenever, and whatever requests are handled between: the notices of the
changes made since a subscriber joined are those that it was told of and then those that are still to
come.  What comes next is the first of these; only where there are more than the channel keeps, which is
the capacity raised to a power of two, it is a report that counts all but the newest.

What comes after the report is the oldest of the newest if no change is made until then.  If some are
made, they push as many of the newest out of the channel, and the next thing is a report of these
(`reported_again`). -/
theorem accounted_run (directory : Directory) (events : List Audience.Event) (i : Nat) (l : Listener)
    (hl : ((start directory).run events).listeners[i]? = some l) :
    let a := (start directory).run events
    let capacity := (max directory.policy.noticeCapacity 1).nextPowerOfTwo
    ∃ told pending,
      noticesOf ((start directory).changesSince i events) = told ++ pending ∧
      TellsOf l.given told ∧
      a.next? i = some (.next capacity pending) ∧
      (capacity < pending.length → ∀ more, .receive i ∉ more →
        let reported := a.step (.receive i)
        let newest := pending.drop (pending.length - capacity)
        let later := noticesOf (reported.changesSince i more)
        newest.length = capacity ∧
          (reported.run more).next? i = some (.next capacity (newest ++ later)) ∧
          (later = [] → (reported.run more).next? i = newest.head?.map .message) ∧
          (later ≠ [] → (reported.run more).next? i = some (.lagged later.length))) := by
  intro a capacity
  obtain ⟨-, -, hsome⟩ := hears_run directory events i
  obtain ⟨first, told, pending, hhears, hlog⟩ := hsome l hl
  refine ⟨told, pending, hlog, hhears.tells, hhears.next?, ?_⟩
  intro hlag more hother reported newest later
  have hlength : newest.length = capacity := by
    rw [List.length_drop]
    omega
  obtain ⟨l', hreported⟩ := hhears.receive
  rw [Received.next_of_lt hlag] at hreported
  have hnext : (reported.run more).next? i = some (.next capacity (newest ++ later)) :=
    (hreported.run_others hother).next?
  refine ⟨hlength, hnext, fun hnone => ?_, fun hsome => ?_⟩
  · have hpos : 0 < capacity := Nat.pos_of_isPowerOfTwo (Nat.isPowerOfTwo_nextPowerOfTwo _)
    rw [hnext, hnone, List.append_nil, Received.next_of_not_lt (by omega)]
    clear_value newest
    cases newest with
    | nil =>
      rw [List.length_nil] at hlength
      omega
    | cons oldest rest => rfl
  · have hpos : 0 < later.length := List.length_pos_iff.mpr hsome
    have hboth : (newest ++ later).length = capacity + later.length := by
      rw [List.length_append, hlength]
    rw [hnext, Received.next_of_lt (by omega), hboth, Nat.add_sub_cancel_left]

/-- A channel that keeps one notice, and a subscriber that is reported the notices missed once, looks
again, and is behind once more. -/
theorem accounted_of_slow_listener :
    let id := "00000000-0000-0000-0000-000000000001"
    let registration := "\x7b'request':'register','entry':\x7b'id':'" ++ id ++
      "','name':'a','topic':'clock','type':'service','address':'c:1'\x7d\x7d"
    let removal := "\x7b'request':'unregister','id':'" ++ id ++ "'\x7d"
    let removed := "\x7b\"event\":\"unregistered\",\"id\":\"" ++ id ++ "\"\x7d"
    let directory : Directory := { policy := { noticeCapacity := 1 } }
    let events : List Audience.Event := [
      .handle 7 registration, .subscribe, .handle 8 removal, .handle 7 registration, .handle 9 removal,
      .receive 0, .receive 0, .handle 7 registration, .handle 8 removal]
    let a := (Audience.start directory).run events
    ∃ l, a.listeners[0]? = some l ∧ l.given = [.lagged 2, .message ⟨9, removed⟩] ∧
      ∃ told pending,
        noticesOf ((Audience.start directory).changesSince 0 events) = told ++ pending ∧
        TellsOf l.given told ∧
        a.next? 0 = some (.next 1 pending) ∧ pending.length = 2 ∧
        (a.step (.receive 0)).next? 0 = some (.message ⟨8, removed⟩) := by
  intro id registration removal removed directory events a
  have hruns : a.listeners.map (·.given) = [[.lagged 2, .message ⟨9, removed⟩]] ∧
      a.next? 0 = some (.lagged 1) ∧
      (a.step (.receive 0)).next? 0 = some (.message ⟨8, removed⟩) ∧
      (max directory.policy.noticeCapacity 1).nextPowerOfTwo = 1 := by
    decide +kernel
  obtain ⟨hgiven, hreport, hafter, hcapacity⟩ := hruns
  obtain ⟨l, hlisteners, hl⟩ := List.map_eq_singleton_iff.mp hgiven
  have hfirst : a.listeners[0]? = some l := by rw [hlisteners]; rfl
  obtain ⟨told, pending, hlog, htells, hnext, -⟩ := accounted_run directory events 0 l hfirst
  rw [hcapacity] at hnext
  refine ⟨l, hfirst, hl, told, pending, hlog, htells, hnext, ?_, hafter⟩
  -- the report is of one notice, so one more is pending
  have hbehind := Option.some.inj (hnext.symm.trans hreport)
  by_cases hlag : 1 < pending.length
  · rw [Received.next_of_lt hlag] at hbehind
    have hcount := Received.lagged.inj hbehind
    omega
  · rw [Received.next_of_not_lt hlag] at hbehind
    cases pending with
    | nil => cases hbehind
    | cons message pending => cases hbehind

/-- A channel that keeps one notice, and a subscriber that is reported a notice missed.  What it would be
given next is the notice of the removal; but another change is made, and it is reported that one missed. -/
theorem reported_again :
    let id := "00000000-0000-0000-0000-000000000001"
    let registration := "\x7b'request':'register','entry':\x7b'id':'" ++ id ++
      "','name':'a','topic':'clock','type':'service','address':'c:1'\x7d\x7d"
    let removal := "\x7b'request':'unregister','id':'" ++ id ++ "'\x7d"
    let removed := "\x7b\"event\":\"unregistered\",\"id\":\"" ++ id ++ "\"\x7d"
    let directory : Directory := { policy := { noticeCapacity := 1 } }
    let reported := (Audience.start directory).run
      [.subscribe, .handle 7 registration, .handle 8 removal, .receive 0]
    let again := reported.run [.handle 7 registration, .receive 0]
    (reported.listeners.map (·.given), reported.next? 0) =
        ([[.lagged 1]], some (.message ⟨8, removed⟩)) ∧
      again.listeners.map (·.given) = [[.lagged 1, .lagged 1]] := by
  decide +kernel

end ServiceDirectory
