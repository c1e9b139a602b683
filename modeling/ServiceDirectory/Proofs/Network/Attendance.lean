import ServiceDirectory.Proofs.Network.Sessions
import ServiceDirectory.Proofs.Network.Subscribers

/-!
# What steps do to the directory

A step of a connection does nothing to the directory but that receivers of notices come or go
(`Directory.Attends`, `Connection.attends_of_move`).  All other steps apply a request to the table or send a
notice (`BusyNetwork.Shared`).  So how requests are read, and whether notices are on, never change in a run,
and whoever could read a notice is counted as a receiver (`BusyNetwork.manned_run`).
-/

namespace ServiceDirectory

open WebSocket (Violation)
open Upgrade (Outcome)

/-! ## Receivers that come and go -/

/-- The directory with another number of receivers of its notices. -/
def Directory.withReceivers (directory : Directory) (n : Nat) : Directory :=
  { directory with feed := directory.feed.map fun channel => { channel with receivers := n } }

/-- Nothing is done to a directory but that receivers come or go. -/
def Directory.Attends (before after : Directory) : Prop := ∃ n, after = before.withReceivers n

namespace Directory

theorem Attends.refl (directory : Directory) : directory.Attends directory := by
  obtain ⟨policy, store, feed, lenient⟩ := directory
  cases feed with
  | none => exact ⟨0, rfl⟩
  | some channel => exact ⟨channel.receivers, rfl⟩

theorem attends_subscribe (directory : Directory) : directory.Attends directory.subscribe.2 := by
  obtain ⟨policy, store, feed, lenient⟩ := directory
  cases feed with
  | none => exact ⟨0, rfl⟩
  | some channel => exact ⟨channel.receivers + 1, rfl⟩

theorem attends_unsubscribe (directory : Directory) : directory.Attends directory.unsubscribe := by
  obtain ⟨policy, store, feed, lenient⟩ := directory
  cases feed with
  | none => exact ⟨0, rfl⟩
  | some channel => exact ⟨channel.receivers - 1, rfl⟩

/-- Publishing does nothing but to send a notice. -/
theorem publish_eq (directory : Directory) (session : SessionId) (change : Change) :
    (directory.publish session change).2 =
      { directory with
        feed := directory.feed.map fun channel => (channel.send (change.notice session)).2 } := by
  obtain ⟨policy, store, feed, lenient⟩ := directory
  cases feed <;> rfl

end Directory

namespace Connection

variable {now : Nat} {hub : Hub} {c : Connection}

theorem attends_leave (hub : Hub) (c : Connection) :
    hub.directory.Attends (leave hub c).directory := by
  unfold leave
  split
  · exact Directory.attends_unsubscribe hub.directory
  · exact .refl hub.directory

theorem attends_finish (hub : Hub) (c : Connection) (result : Except Failure Unit) :
    hub.directory.Attends (finish hub c result).1.directory :=
  attends_leave hub c

theorem attends_writeThen (hub : Hub) (c : Connection) (bytes : Bytes)
    {next : Hub → Connection → Hub × Connection}
    (hnext : ∀ c', hub.directory.Attends (next hub c').1.directory) :
    hub.directory.Attends (writeThen hub c bytes next).1.directory :=
  writeThen_cases (P := fun next => hub.directory.Attends next.1.directory)
    (fun _ _ _ => hnext _) (fun _ _ _ _ _ _ => attends_finish hub _ _)

theorem attends_message (hub : Hub) (c : Connection) (bytes : Bytes) :
    hub.directory.Attends (writeThen hub c bytes stay).1.directory :=
  attends_writeThen hub c bytes fun _ => .refl _

theorem attends_closing (hub : Hub) (c : Connection) (bytes : Bytes) :
    hub.directory.Attends
      (writeThen hub c bytes fun hub c => finish hub c (.ok ())).1.directory :=
  attends_writeThen hub c bytes fun _ => attends_finish hub _ _

theorem attends_conclude (now : Nat) (hub : Hub) (c : Connection) (outcome : Outcome) :
    hub.directory.Attends (conclude now hub c outcome).1.directory := by
  refine attends_writeThen hub c _ ?_
  intro c'
  cases outcome with
  | accepted value => exact Directory.attends_subscribe hub.directory
  | refused cause => exact attends_finish { hub with metrics := hub.metrics.handshakeRejected } c' _

theorem attends_respond (hub : Hub) (c : Connection) (response : Response) :
    hub.directory.Attends (c.respond hub response).1.directory :=
  attends_message { hub with metrics := hub.metrics.messageHandled } _ _

/-- **All that a move does to the directory is that receivers come or go.** -/
theorem attends_of_move {occurrence : Occurrence} {next : Hub × Connection}
    (h : Move now hub c occurrence next) : hub.directory.Attends next.1.directory := by
  cases h with
  | rest => exact .refl _
  | receive bytes => exact .refl _
  | limit room => exact .refl _
  | conclude _ _ => exact attends_conclude now hub _ _
  | breakOff _ _ => exact attends_leave hub c
  | violation _ _ => exact attends_leave hub _
  | fault _ _ _ => exact attends_leave hub _
  | ping _ _ _ => exact attends_message hub _ _
  | pong _ _ _ => exact .refl _
  | close _ _ _ => exact attends_closing hub _ _
  | lag _ _ _ => exact .refl _
  | skip _ _ _ _ => exact .refl _
  | tell _ _ _ _ => exact attends_message hub _ _
  | leaveEarly _ => exact attends_finish hub c _
  | leave _ => exact attends_finish hub c _
  | loseEarly _ => exact attends_finish hub c _
  | lose _ => exact attends_finish hub c _
  | timeOut _ => exact attends_finish hub c _
  | timeOutAnswering _ _ _ => exact attends_finish hub _ _
  | idle _ => exact attends_closing hub _ _

theorem attends_effect {action : Action} (hq : action.request? c = none) (now : Nat) (hub : Hub) :
    hub.directory.Attends (action.effect now hub c).1.directory :=
  attends_of_move (move_effect hq now hub)

end Connection

/-! ## Steps of a run -/

namespace BusyNetwork

variable {b b' : BusyNetwork} {who : Option Nat} {occurrence : Connection.Occurrence}
  {notice : Option (Nat × Notice)}

/-- What is done to the directory: receivers come or go, or a request is applied, or a notice is sent. -/
inductive Shared (before : Directory) : Directory → Prop
  | attends {after : Directory} (attends : before.Attends after) : Shared before after
  | applied (store : Store) : Shared before { before with store }
  | published (session : SessionId) (change : Change) : Shared before (before.publish session change).2

theorem shared_turn (ht : b.Turn who occurrence notice b') : Shared b.directory b'.directory := by
  cases ht with
  | rest => exact .attends (.refl _)
  | connect session => exact .attends (.refl _)
  | pass milliseconds => exact .attends (.refl _)
  | receive bytes _ => exact .attends (.refl _)
  | limit room _ => exact .attends (.refl _)
  | move _ _ hmove => exact .attends (Connection.attends_of_move hmove)
  | begin _ _ _ => exact .applied _
  | publish _ => exact .published _ _
  | respond _ _ => exact .attends (Connection.attends_respond _ _ _)

/-- How requests are read, and whether notices are on, stay as they are. -/
theorem Shared.kept {before after : Directory} (h : Shared before after) :
    after.lenient = before.lenient ∧ after.feed.isSome = before.feed.isSome := by
  cases h with
  | attends hattends =>
    obtain ⟨n, rfl⟩ := hattends
    exact ⟨rfl, Option.isSome_map⟩
  | applied store => exact ⟨rfl, rfl⟩
  | published session change =>
    rw [Directory.publish_eq]
    exact ⟨rfl, Option.isSome_map⟩

theorem kept_run (start : BusyNetwork) (steps : List Step) :
    (start.run steps).directory.lenient = start.directory.lenient ∧
      (start.run steps).directory.feed.isSome = start.directory.feed.isSome := by
  induction steps using List.reverseRecOn with
  | nil => exact ⟨rfl, rfl⟩
  | append_singleton steps step ih =>
    obtain ⟨who, occurrence, notice, -, hturn⟩ := run_step start steps step
    obtain ⟨hlenient, hfeed⟩ := (shared_turn hturn).kept
    exact ⟨hlenient.trans ih.1, hfeed.trans ih.2⟩

theorem lenient_run (config : Config) (store : Store) (steps : List Step) :
    ((ofNetwork (Network.start config store)).run steps).directory.lenient = config.lenientQuotes := by
  refine (kept_run _ steps).1.trans ?_
  show (Network.directoryOf config store).lenient = config.lenientQuotes
  unfold Network.directoryOf
  split <;> rfl

/-- Whoever could read a notice is counted as a receiver. -/
def Manned (b : BusyNetwork) : Prop :=
  ∀ c ∈ b.network.connections, c.isSubscribed = true →
    ∀ channel, b.directory.feed = some channel → 0 < channel.receivers

theorem Counted.manned (h : b.Counted) : b.Manned := by
  intro c hc hsubscribed channel hfeed
  obtain ⟨channel', hfeed', hcount⟩ := h
  obtain rfl := Option.some.inj (hfeed'.symm.trans hfeed)
  rw [hcount]
  exact List.countP_pos_iff.mpr ⟨c, hc, hsubscribed⟩

theorem manned_run (config : Config) (store : Store) (steps : List Step) :
    ((ofNetwork (Network.start config store)).run steps).Manned := by
  cases hn : config.notices with
  | true => exact ((counted_start hn store).run steps).manned
  | false =>
    intro c _ _ channel hfeed
    have hkept := (kept_run (ofNetwork (Network.start config store)) steps).2
    rw [hfeed] at hkept
    have hoff : (Network.directoryOf config store).feed.isSome = true := hkept.symm
    simp [Network.directoryOf, hn] at hoff

end BusyNetwork

end ServiceDirectory
