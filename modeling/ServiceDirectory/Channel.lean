/-!
# Broadcast channels

A channel carries messages from any number of senders to any number of receivers.  A receiver gets
every message sent after it subscribed, once and in order, as long as it keeps up: the channel keeps
the newest messages only, as many as its capacity, and a receiver that fell behind these is told once
how many it missed and goes on with the oldest message kept.  Messages sent while nobody has
subscribed are dropped.
-/

namespace ServiceDirectory

/-- A receiver: the position of the message that it reads next. -/
structure Receiver where
  next : Nat
  deriving DecidableEq, Repr

/-- A channel of messages. -/
structure Channel (α : Type) where
  /-- How many messages are kept. -/
  capacity : Nat
  /-- The position of the next message. -/
  sent : Nat := 0
  /-- The messages kept, newest first. -/
  kept : List α := []
  /-- How many receivers there are. -/
  receivers : Nat := 0
  deriving DecidableEq, Repr

/-- What a receiver gets when it looks for its next message. -/
inductive Received (α : Type) where
  | message (value : α)
  /-- There is nothing to read at present. -/
  | empty
  /-- So many messages were missed. -/
  | lagged (missed : Nat)
  deriving DecidableEq, Repr

namespace Channel

/-- A channel that keeps at least so many messages: the capacity is raised to the next power of
two, and from 0 to 1. -/
def withCapacity (capacity : Nat) : Channel α :=
  { capacity := (max capacity 1).nextPowerOfTwo }

/-- Add a receiver of the messages sent from now on. -/
def subscribe (channel : Channel α) : Receiver × Channel α :=
  (⟨channel.sent⟩, { channel with receivers := channel.receivers + 1 })

/-- Remove a receiver. -/
def unsubscribe (channel : Channel α) : Channel α :=
  { channel with receivers := channel.receivers - 1 }

/-- Send a message.  The number of receivers comes first; without receivers the message is
dropped. -/
def send (channel : Channel α) (message : α) : Nat × Channel α :=
  if channel.receivers = 0 then (0, channel)
  else
    (channel.receivers,
      { channel with
        sent := channel.sent + 1
        kept := (message :: channel.kept).take channel.capacity })

/-- How many messages a receiver has not read. -/
def unread (channel : Channel α) (receiver : Receiver) : Nat := channel.sent - receiver.next

/-- Read the next message of a receiver. -/
def receive (channel : Channel α) (receiver : Receiver) : Received α × Receiver :=
  let unread := channel.unread receiver
  if channel.capacity < unread then
    (.lagged (unread - channel.capacity), ⟨channel.sent - channel.capacity⟩)
  else
    match unread with
    | 0 => (.empty, receiver)
    | older + 1 =>
      match channel.kept[older]? with
      | some message => (.message message, ⟨receiver.next + 1⟩)
      | none => (.empty, receiver)

end Channel

end ServiceDirectory
