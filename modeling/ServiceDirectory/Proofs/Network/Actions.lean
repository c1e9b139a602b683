import ServiceDirectory.Network
import ServiceDirectory.Proofs.Connection.Phases

/-!
# What an action does to a connection

All actions but two concern one connection: they do something to it and to the hub, and the other
connections stay as they are (`Network.act_of_get`).  `Action.effect` is what is done.

What is done is a move of the connection, or the answer to a request (`Connection.move_effect`,
`Connection.effect_of_request`).  A property of all runs is a case for each and an induction, which is done
here once and for all (`Network.forall_run`).
-/

namespace ServiceDirectory

/-! ## Actions on one connection -/

/-- The connection that an action concerns. -/
def Action.connection? : Action → Option Nat
  | .connect _ | .pass _ => none
  | .receive conn _ | .endInput conn | .failInput conn _ | .breakOutlet conn | .limitOutlet conn _
  | .advance conn | .suspend conn | .takeNotice conn | .expire conn | .expireAnswering conn _ =>
    some conn

/-- What an action does to the connection that it concerns. -/
def Action.effect (now : Nat) (hub : Hub) (c : Connection) : Action → Hub × Connection
  | .connect _ | .pass _ => (hub, c)
  | .receive _ bytes => (hub, c.receive now bytes)
  | .endInput _ => c.endInput hub
  | .failInput _ cause => c.failInput hub cause
  | .breakOutlet _ => (hub, c.breakOutlet)
  | .limitOutlet _ room => (hub, c.limitOutlet room)
  | .advance _ => (c.advance now hub).getD (hub, c)
  | .suspend _ => c.suspend hub
  | .takeNotice _ => (c.takeNotice hub).getD (hub, c)
  | .expire _ => Network.whenDue now Connection.expire hub c
  | .expireAnswering _ room =>
    Network.whenDue now (fun hub c => c.expireAnswering hub room) hub c

/-- What can be told of an action from outside. -/
def Action.occurrence (hub : Hub) (c : Connection) : Action → Connection.Occurrence
  | .receive _ bytes => .arrival bytes
  | .advance _ => c.workOccurrence
  | .takeNotice _ => c.noticeOccurrence hub
  | _ => .silent

/-- The text of the request that an action answers, and the bytes behind it. -/
def Action.request? (c : Connection) : Action → Option (List Char × Bytes)
  | .advance _ => c.request?
  | _ => none

namespace Network

variable {n : Network} {action : Action} {conn : Nat} {c : Connection}

theorem act_eq_update (h : action.connection? = some conn) :
    n.act action = n.update conn fun hub c => action.effect n.now hub c := by
  cases action with
  | connect session => exact nomatch h
  | pass milliseconds => exact nomatch h
  | receive other bytes => obtain rfl := Option.some.inj h; rfl
  | endInput other => obtain rfl := Option.some.inj h; rfl
  | failInput other cause => obtain rfl := Option.some.inj h; rfl
  | breakOutlet other => obtain rfl := Option.some.inj h; rfl
  | limitOutlet other room => obtain rfl := Option.some.inj h; rfl
  | advance other => obtain rfl := Option.some.inj h; rfl
  | suspend other => obtain rfl := Option.some.inj h; rfl
  | takeNotice other => obtain rfl := Option.some.inj h; rfl
  | expire other => obtain rfl := Option.some.inj h; rfl
  | expireAnswering other room => obtain rfl := Option.some.inj h; rfl

/-- An action on a connection that is there. -/
theorem act_of_get (h : action.connection? = some conn) (hc : n.connections[conn]? = some c) :
    n.act action =
      { n with
        hub := (action.effect n.now n.hub c).1
        connections := n.connections.set conn (action.effect n.now n.hub c).2 } := by
  rw [act_eq_update h, update, hc]

/-- An action on a connection that is not there does nothing. -/
theorem act_of_get_none (h : action.connection? = some conn) (hc : n.connections[conn]? = none) :
    n.act action = n := by
  rw [act_eq_update h, update, hc]

/-- The connection that an action concerned, after it. -/
theorem getElem?_act (h : action.connection? = some conn) (hc : n.connections[conn]? = some c) :
    (n.act action).connections[conn]? = some (action.effect n.now n.hub c).2 := by
  rw [act_of_get h hc]
  exact List.getElem?_set_self (List.getElem?_eq_some_iff.mp hc).1

/-- An action leaves the connections that it does not concern as they are. -/
theorem getElem?_act_of_ne (h : action.connection? ≠ some conn)
    (hc : n.connections[conn]? = some c) : (n.act action).connections[conn]? = some c := by
  cases hconn : action.connection? with
  | some other =>
    have hne : other ≠ conn := fun heq => h (heq ▸ hconn)
    cases hother : n.connections[other]? with
    | none => rwa [act_of_get_none hconn hother]
    | some d =>
      rw [act_of_get hconn hother]
      exact (List.getElem?_set_ne hne).trans hc
  | none =>
    cases action with
    | connect session =>
      show (n.connections ++ [_])[conn]? = some c
      rw [List.getElem?_append_left (List.getElem?_eq_some_iff.mp hc).1]
      exact hc
    | pass milliseconds => exact hc
    | _ => exact nomatch hconn

/-- **The step for all connections**: what holds of every connection that begins, and is kept by what an
action does, goes on to hold of all connections. -/
theorem forall_act {P : Connection → Prop} (hn : ∀ c ∈ n.connections, P c)
    (hstart : ∀ session, P (Connection.start n.config session n.now n.hub).2)
    (hstep : ∀ c, P c → P (action.effect n.now n.hub c).2) :
    ∀ c ∈ (n.act action).connections, P c := by
  intro c hc
  cases hconn : action.connection? with
  | some conn =>
    cases hother : n.connections[conn]? with
    | none =>
      rw [act_of_get_none hconn hother] at hc
      exact hn c hc
    | some d =>
      rw [act_of_get hconn hother] at hc
      rcases List.mem_or_eq_of_mem_set hc with hc | rfl
      · exact hn c hc
      · exact hstep d (hn d (List.mem_of_getElem? hother))
  | none =>
    cases action with
    | connect session =>
      rcases List.mem_append.mp hc with hc | hc
      · exact hn c hc
      · obtain rfl := List.mem_singleton.mp hc
        exact hstart session
    | pass milliseconds => exact hn c hc
    | _ => exact nomatch hconn

/-- **The run for all connections.** -/
theorem forall_run {P : Connection → Prop} (hn : ∀ c ∈ n.connections, P c)
    (hstart : ∀ config session now hub, P (Connection.start config session now hub).2)
    (hstep : ∀ (action : Action) now hub c, P c → P (action.effect now hub c).2)
    (actions : List Action) : ∀ c ∈ (n.run actions).connections, P c := by
  induction actions generalizing n with
  | nil => exact hn
  | cons action actions ih =>
    exact ih (forall_act hn (fun session => hstart _ session _ _) (fun c hc => hstep action _ _ c hc))

theorem run_append (n : Network) (first second : List Action) :
    n.run (first ++ second) = (n.run first).run second :=
  List.foldl_append

end Network

namespace Connection

variable {now : Nat} {hub : Hub} {c : Connection}

theorem move_whenDue {f : Hub → Connection → Hub × Connection}
    (h : Move now hub c .silent (f hub c)) : Move now hub c .silent (Network.whenDue now f hub c) := by
  rw [Network.whenDue]
  split
  · split
    · exact h
    · exact .rest
  · exact .rest

/-- **What an action does to a connection is one of its moves**, unless a request is next. -/
theorem move_effect {action : Action} (hq : action.request? c = none) (now : Nat) (hub : Hub) :
    Move now hub c (action.occurrence hub c) (action.effect now hub c) := by
  cases action with
  | connect session => exact .rest
  | pass milliseconds => exact .rest
  | receive conn bytes => exact .receive bytes
  | endInput conn => exact move_endInput now hub c
  | failInput conn cause => exact move_failInput now hub c cause
  | breakOutlet conn => exact .limit (some 0)
  | limitOutlet conn room => exact .limit _
  | advance conn => exact move_advance now hub hq
  | suspend conn => exact move_suspend now hub c
  | takeNotice conn => exact move_takeNotice now hub c
  | expire conn => exact move_whenDue (move_expire now hub c)
  | expireAnswering conn room =>
    exact @move_whenDue now hub c (fun hub c => c.expireAnswering hub room)
      (move_expireAnswering now hub c room)

/-- A request that is next is answered. -/
theorem effect_of_request {action : Action} {text : List Char} {rest : Bytes}
    (hq : action.request? c = some (text, rest)) (now : Nat) (hub : Hub) :
    action.effect now hub c = answer hub { c with inbox := rest } text := by
  cases action with
  | advance conn =>
    obtain ⟨receiver, frame, -, -, -, -, hadvance⟩ := advance_of_request hq
    show (c.advance now hub).getD (hub, c) = _
    rw [hadvance]
    rfl
  | _ => cases hq

theorem serving_of_request {action : Action} {text : List Char} {rest : Bytes}
    (hq : action.request? c = some (text, rest)) : ∃ receiver, c.stage = .serving receiver := by
  cases action with
  | advance conn =>
    obtain ⟨receiver, frame, hs, -⟩ := advance_of_request hq
    exact ⟨receiver, hs⟩
  | _ => cases hq

theorem continues_effect (action : Action) (now : Nat) (hub : Hub) (c : Connection) :
    c.Continues (action.effect now hub c).2 := by
  cases hq : action.request? c with
  | none => exact continues_of_move (move_effect hq now hub)
  | some next =>
    rw [effect_of_request hq]
    exact continues_answer hub c

theorem Placed.effect (h : c.Placed) (action : Action) (now : Nat) (hub : Hub) :
    (action.effect now hub c).2.Placed := by
  cases hq : action.request? c with
  | none => exact h.move (move_effect hq now hub)
  | some next =>
    obtain ⟨receiver, hs⟩ := serving_of_request hq
    rw [effect_of_request hq]
    exact h.answer hs hub _ _

end Connection

/-! ## Connections in a run -/

namespace Network

variable {n : Network} {conn : Nat} {c : Connection}

theorem continues_act (hc : n.connections[conn]? = some c) (action : Action) :
    ∃ c', (n.act action).connections[conn]? = some c' ∧ c.Continues c' := by
  by_cases hconn : action.connection? = some conn
  · exact ⟨_, getElem?_act hconn hc, Connection.continues_effect action n.now n.hub c⟩
  · exact ⟨c, getElem?_act_of_ne hconn hc, .refl c⟩

/-- **A connection only goes forward in a run.** -/
theorem continues_run (hc : n.connections[conn]? = some c) (actions : List Action) :
    ∃ c', (n.run actions).connections[conn]? = some c' ∧ c.Continues c' := by
  induction actions generalizing n c with
  | nil => exact ⟨c, hc, .refl c⟩
  | cons action actions ih =>
    obtain ⟨c₁, hc₁, hfirst⟩ := continues_act hc action
    obtain ⟨c', hc', hrest⟩ := ih hc₁
    exact ⟨c', hc', hfirst.trans hrest⟩

/-- **Every connection of a run is as its stage says.** -/
theorem placed_run (config : Config) (store : Store) (actions : List Action) :
    ∀ c ∈ ((start config store).run actions).connections, c.Placed :=
  forall_run (fun _ hc => (List.not_mem_nil hc).elim) Connection.placed_start
    (fun action now hub _ h => h.effect action now hub) actions

end Network

/-! ## A client whose connection breaks off -/

/-- A request to switch protocols. -/
def upgradeRequest : Bytes :=
  Utf8.encode ("GET /chat HTTP/1.1\r\nHost: server.example.com\r\nUpgrade: websocket\r\n" ++
    "Connection: Upgrade\r\nSec-WebSocket-Key: dGhlIHNhbXBsZSBub25jZQ==\r\n" ++
    "Sec-WebSocket-Version: 13\r\n\r\n").toList

/-- The header and the key of a text frame of 2^64 - 1 bytes. -/
def boundlessFrame : Bytes :=
  [0x81, 0xFF, 0xFF, 0xFF, 0xFF, 0xFF, 0xFF, 0xFF, 0xFF, 0xFF, 0, 0, 0, 0]

/-- Settings under which a frame may be of any size. -/
def boundless : Config := ({} : Config).withMaxMessageSize 0xFFFFFFFFFFFFFFFF

end ServiceDirectory
