import Mathlib.Logic.Function.Basic
import ServiceDirectory.Proofs.Connection.Replies
import ServiceDirectory.Proofs.Network.Actions

/-!
# Interleavings

An action of a network is a step that nothing comes between.  The answer to a request is more than
that: the request is applied to the table, the change that it made is published, and the response is
written, and between these other connections go on.  A `BusyNetwork` is a network whose connections may
be in the middle of an answer; each of its steps touches what the connections share only once.

What is observed of a run is its history (`BusyNetwork.history`): the notices that are published, and of
each connection the bytes that arrive, what is taken in from them, and the notices that are missed.

A network is a busy network that lets each answer be finished before anything else happens
(`BusyNetwork.run_ofActions`), so whatever is proved of all runs of busy networks is true of networks.
-/

namespace ServiceDirectory

open WebSocket (Frame)

/-! ## Connections in the middle of an answer -/

/-- A request that was applied to the table and is not answered yet. -/
structure Answering where
  session : SessionId
  /-- The change that it made, until that is published. -/
  change : Option Change
  response : Response

/-- Write a response. -/
def Connection.respond (hub : Hub) (c : Connection) (response : Response) : Hub × Connection :=
  writeThen { hub with metrics := hub.metrics.messageHandled }
    { c with session := c.session.addMessage }
    (Frame.writeText (Utf8.encode response.render.toList)) stay

/-- A network whose connections may be in the middle of an answer. -/
structure BusyNetwork where
  network : Network
  /-- The requests that connections are in the middle of answering. -/
  answering : Nat → Option Answering := fun _ => none

namespace BusyNetwork

/-- A step of one connection, or of none. -/
inductive Step where
  /-- An action; where it is to answer a request, only the first step of that. -/
  | act (action : Action)
  /-- A connection publishes the change that its request made. -/
  | publish (conn : Nat)
  /-- A connection writes the response to its request. -/
  | respond (conn : Nat)

/-- What the connections share and answer from. -/
def directory (b : BusyNetwork) : Directory := b.network.hub.directory

/-- The same with another directory. -/
def withDirectory (b : BusyNetwork) (directory : Directory) : BusyNetwork :=
  { b with network := { b.network with hub := { b.network.hub with directory } } }

/-- The same with another connection in a place. -/
def withConnection (b : BusyNetwork) (conn : Nat) (c : Connection) : BusyNetwork :=
  { b with network := { b.network with connections := b.network.connections.set conn c } }

/-- The same after a step of one connection. -/
def withNext (b : BusyNetwork) (conn : Nat) (next : Hub × Connection) : BusyNetwork :=
  { b with network :=
      { b.network with hub := next.1, connections := b.network.connections.set conn next.2 } }

/-- The same with a connection in the middle of an answer, or not any more. -/
def withAnswering (b : BusyNetwork) (conn : Nat) (answering : Option Answering) : BusyNetwork :=
  { b with answering := Function.update b.answering conn answering }

end BusyNetwork

/-- What comes of the text of a request. -/
def Directory.applyText (directory : Directory) (text : List Char) : Directory.Applied :=
  Directory.apply directory.policy directory.store
    (Request.parse directory.lenient (String.ofList text))

namespace BusyNetwork

/-- Take a request from the inbox of a connection and apply it to the table. -/
def begin (b : BusyNetwork) (conn : Nat) (c : Connection) (text : List Char) (rest : Bytes) :
    BusyNetwork :=
  let applied := b.directory.applyText text
  ((b.withDirectory { b.directory with store := applied.store }).withConnection conn
    { c with inbox := rest }).withAnswering conn
      (some { session := c.session.id, change := applied.change, response := applied.response })

end BusyNetwork

/-- The action is one of the client: it may happen while the client's request is being answered. -/
def Action.isOfClient : Action → Bool
  | .receive .. | .breakOutlet _ | .limitOutlet .. => true
  | _ => false

namespace BusyNetwork

/-- The busy network after a step.  A connection in the middle of an answer does nothing else. -/
def step (b : BusyNetwork) : Step → BusyNetwork
  | .act action =>
    match action.connection? with
    | none => { b with network := b.network.act action }
    | some conn =>
      match b.network.connections[conn]? with
      | none => b
      | some c =>
        if (b.answering conn).isSome ∧ ¬ action.isOfClient then b
        else match action.request? c with
          | some (text, rest) => b.begin conn c text rest
          | none => { b with network := b.network.act action }
  | .publish conn =>
    match b.answering conn with
    | some ⟨session, some change, response⟩ =>
      (b.withDirectory (b.directory.publish session change).2).withAnswering conn
        (some ⟨session, none, response⟩)
    | _ => b
  | .respond conn =>
    match b.answering conn, b.network.connections[conn]? with
    | some ⟨_, none, response⟩, some c =>
      (b.withNext conn (c.respond b.network.hub response)).withAnswering conn none
    | _, _ => b

/-- The busy network after a list of steps. -/
def run (b : BusyNetwork) (steps : List Step) : BusyNetwork := steps.foldl step b

theorem run_append (b : BusyNetwork) (first second : List Step) :
    b.run (first ++ second) = (b.run first).run second :=
  List.foldl_append

theorem run_concat (b : BusyNetwork) (steps : List Step) (step : Step) :
    b.run (steps ++ [step]) = (b.run steps).step step :=
  run_append b steps [step]

/-! ## Histories -/

/-- The notice that a step publishes, and the connection that publishes it. -/
def notice? (b : BusyNetwork) : Step → Option (Nat × Notice)
  | .publish conn =>
    match b.answering conn with
    | some ⟨session, some change, _⟩ => some (conn, change.notice session)
    | _ => none
  | _ => none

/-- What can be told of a connection in a step. -/
def occurrence (b : BusyNetwork) (conn : Nat) : Step → Connection.Occurrence
  | .act action =>
    match b.network.connections[conn]? with
    | some c =>
      if action.connection? = some conn ∧ ((b.answering conn).isNone ∨ action.isOfClient) then
        action.occurrence b.network.hub c
      else .silent
    | none => .silent
  | _ => .silent

/-- All that is observed in steps, one after the other. -/
def history (observe : BusyNetwork → Step → List α) (b : BusyNetwork) : List Step → List α
  | [] => []
  | step :: steps => observe b step ++ history observe (b.step step) steps

theorem history_append (observe : BusyNetwork → Step → List α) (b : BusyNetwork)
    (first second : List Step) :
    history observe b (first ++ second) =
      history observe b first ++ history observe (b.run first) second := by
  induction first generalizing b with
  | nil => rfl
  | cons step first ih =>
    show observe b step ++ history observe (b.step step) (first ++ second) = _
    rw [ih, ← List.append_assoc]
    rfl

/-- The history of one more step. -/
theorem history_concat (observe : BusyNetwork → Step → List α) (b : BusyNetwork) (steps : List Step)
    (step : Step) :
    history observe b (steps ++ [step]) = history observe b steps ++ observe (b.run steps) step := by
  rw [history_append]
  show _ ++ (observe (b.run steps) step ++ []) = _
  rw [List.append_nil]

/-- The notices that are published, each with the connection that publishes it. -/
def published (b : BusyNetwork) (steps : List Step) : List (Nat × Notice) :=
  history (fun b step => (b.notice? step).toList) b steps

/-- The bytes that arrive from a client. -/
def arrived (conn : Nat) (b : BusyNetwork) (steps : List Step) : Bytes :=
  history (fun b step => (b.occurrence conn step).bytes) b steps

/-- The frames and broken rules that a connection takes in. -/
def receptions (conn : Nat) (b : BusyNetwork) (steps : List Step) : List Reception :=
  history (fun b step => (b.occurrence conn step).receptions b.directory) b steps

/-- How many notices a connection misses, each time that it does. -/
def missed (conn : Nat) (b : BusyNetwork) (steps : List Step) : List Nat :=
  history (fun b step => (b.occurrence conn step).missed?.toList) b steps

/-! ## Everything that a step can be -/

/-- Everything that a step can be: the connection that takes it, what can be told of that, the notice
published, and the busy network afterwards. -/
inductive Turn (b : BusyNetwork) :
    Option Nat → Connection.Occurrence → Option (Nat × Notice) → BusyNetwork → Prop where
  | rest : Turn b none .silent none b
  | connect (session : SessionId) :
      Turn b none .silent none { b with network := b.network.act (.connect session) }
  | pass (milliseconds : Nat) :
      Turn b none .silent none { b with network := b.network.act (.pass milliseconds) }
  | receive {conn : Nat} {c : Connection} (bytes : Bytes)
      (get_eq : b.network.connections[conn]? = some c) :
      Turn b (some conn) (.arrival bytes) none
        (b.withConnection conn (c.receive b.network.now bytes))
  | limit {conn : Nat} {c : Connection} (room : Option Nat)
      (get_eq : b.network.connections[conn]? = some c) :
      Turn b (some conn) .silent none
        (b.withConnection conn { c with outlet := { c.outlet with room } })
  | move {conn : Nat} {c : Connection} {occurrence : Connection.Occurrence} {next : Hub × Connection}
      (get_eq : b.network.connections[conn]? = some c) (free : b.answering conn = none)
      (move : c.Move b.network.now b.network.hub occurrence next) :
      Turn b (some conn) occurrence none (b.withNext conn next)
  | begin {conn : Nat} {c : Connection} {text : List Char} {rest : Bytes}
      (get_eq : b.network.connections[conn]? = some c) (free : b.answering conn = none)
      (request_eq : c.request? = some (text, rest)) :
      Turn b (some conn) c.workOccurrence none (b.begin conn c text rest)
  | publish {conn : Nat} {session : SessionId} {change : Change} {response : Response}
      (answering_eq : b.answering conn = some ⟨session, some change, response⟩) :
      Turn b (some conn) .silent (some (conn, change.notice session))
        ((b.withDirectory (b.directory.publish session change).2).withAnswering conn
          (some ⟨session, none, response⟩))
  | respond {conn : Nat} {session : SessionId} {response : Response} {c : Connection}
      (get_eq : b.network.connections[conn]? = some c)
      (answering_eq : b.answering conn = some ⟨session, none, response⟩) :
      Turn b (some conn) .silent none
        ((b.withNext conn (c.respond b.network.hub response)).withAnswering conn none)

/-- What is observed of a step, and that it is a turn. -/
structure Takes (b : BusyNetwork) (step : Step) (who : Option Nat) (occurrence : Connection.Occurrence)
    (notice : Option (Nat × Notice)) : Prop where
  turn : b.Turn who occurrence notice (b.step step)
  notice_eq : b.notice? step = notice
  occurrence_eq : ∀ conn, b.occurrence conn step = if who = some conn then occurrence else .silent

variable {b : BusyNetwork} {conn : Nat}

theorem occurrence_of_ne {action : Action} (h : action.connection? ≠ some conn) :
    b.occurrence conn (.act action) = .silent := by
  cases hc : b.network.connections[conn]? with
  | none => simp only [occurrence, hc]
  | some c =>
    simp only [occurrence, hc]
    exact if_neg fun hcond => h hcond.1

theorem occurrence_of_get {action : Action} {c : Connection} (h : action.connection? = some conn)
    (hc : b.network.connections[conn]? = some c)
    (hfree : (b.answering conn).isNone ∨ action.isOfClient) :
    b.occurrence conn (.act action) = action.occurrence b.network.hub c := by
  simp only [occurrence, hc]
  exact if_pos ⟨h, hfree⟩

/-- What an action takes in, for all connections. -/
theorem occurrence_act {action : Action} {c : Connection} (h : action.connection? = some conn)
    (hc : b.network.connections[conn]? = some c)
    (hfree : (b.answering conn).isNone ∨ action.isOfClient) (other : Nat) :
    b.occurrence other (.act action) =
      if some conn = some other then action.occurrence b.network.hub c else .silent := by
  by_cases heq : conn = other
  · subst heq
    rw [if_pos rfl]
    exact occurrence_of_get h hc hfree
  · have hne : some conn ≠ some other := fun hsome => heq (Option.some.inj hsome)
    rw [if_neg hne]
    exact occurrence_of_ne (h ▸ hne)

/-- A step that does nothing. -/
theorem takes_rest {step : Step} (h : b.step step = b) (hn : b.notice? step = none)
    (hi : ∀ conn, b.occurrence conn step = .silent) : b.Takes step none .silent none where
  turn := by
    rw [h]
    exact .rest
  notice_eq := hn
  occurrence_eq := by
    intro conn
    rw [hi conn, if_neg (fun hnone : none = some conn => nomatch hnone)]

theorem takes_publish (b : BusyNetwork) (conn : Nat) :
    ∃ who occurrence notice, b.Takes (.publish conn) who occurrence notice := by
  have hrest : b.step (.publish conn) = b → b.notice? (.publish conn) = none →
      ∃ who occurrence notice, b.Takes (.publish conn) who occurrence notice :=
    fun h hn => ⟨none, .silent, none, takes_rest h hn fun _ => rfl⟩
  cases ha : b.answering conn with
  | none => exact hrest (by simp only [step, ha]) (by simp only [notice?, ha])
  | some answering =>
    obtain ⟨session, change?, response⟩ := answering
    cases change? with
    | none => exact hrest (by simp only [step, ha]) (by simp only [notice?, ha])
    | some change =>
      refine ⟨some conn, .silent, some (conn, change.notice session), ?_, ?_, ?_⟩
      · simp only [step, ha]
        exact .publish ha
      · simp only [notice?, ha]
      · intro other
        rw [ite_self]
        rfl

theorem takes_respond (b : BusyNetwork) (conn : Nat) :
    ∃ who occurrence notice, b.Takes (.respond conn) who occurrence notice := by
  have hrest : b.step (.respond conn) = b →
      ∃ who occurrence notice, b.Takes (.respond conn) who occurrence notice :=
    fun h => ⟨none, .silent, none, takes_rest h rfl fun _ => rfl⟩
  cases ha : b.answering conn with
  | none => exact hrest (by simp only [step, ha])
  | some answering =>
    obtain ⟨session, change?, response⟩ := answering
    cases change? with
    | some change => exact hrest (by simp only [step, ha])
    | none =>
      cases hc : b.network.connections[conn]? with
      | none => exact hrest (by simp only [step, ha, hc])
      | some c =>
        refine ⟨some conn, .silent, none, ?_, rfl, ?_⟩
        · simp only [step, ha, hc]
          exact .respond hc ha
        · intro other
          rw [ite_self]
          rfl

/-- An action on a connection that is free to take it. -/
theorem step_act {action : Action} {c : Connection} (h : action.connection? = some conn)
    (hc : b.network.connections[conn]? = some c)
    (hfree : (b.answering conn).isNone ∨ action.isOfClient) (hq : action.request? c = none) :
    b.step (.act action) = b.withNext conn (action.effect b.network.now b.network.hub c) := by
  have hcond : ¬ ((b.answering conn).isSome ∧ ¬ action.isOfClient) := by
    rintro ⟨hsome, hclient⟩
    rcases hfree with hnone | hyes
    · rw [Option.isNone_iff_eq_none.mp hnone] at hsome
      exact nomatch hsome
    · exact hclient hyes
  simp only [step, h, hc, if_neg hcond, hq, Network.act_of_get h hc, withNext]

/-- Actions of the client may happen at any time. -/
theorem takes_ofClient {action : Action} {c : Connection} (h : action.connection? = some conn)
    (hc : b.network.connections[conn]? = some c) (hclient : action.isOfClient = true) :
    b.Takes (.act action) (some conn) (action.occurrence b.network.hub c) none where
  turn := by
    cases action with
    | receive other bytes =>
      rw [step_act h hc (.inr hclient) rfl]
      exact .receive bytes hc
    | breakOutlet other =>
      rw [step_act h hc (.inr hclient) rfl]
      exact .limit (some 0) hc
    | limitOutlet other room =>
      rw [step_act h hc (.inr hclient) rfl]
      exact .limit _ hc
    | _ => exact nomatch hclient
  notice_eq := rfl
  occurrence_eq := occurrence_act h hc (.inr hclient)

/-- Other actions happen to a connection that is not in the middle of an answer. -/
theorem takes_of_free {action : Action} {c : Connection} (h : action.connection? = some conn)
    (hc : b.network.connections[conn]? = some c) (hfree : b.answering conn = none) :
    b.Takes (.act action) (some conn) (action.occurrence b.network.hub c) none where
  turn := by
    cases hq : action.request? c with
    | none =>
      rw [step_act h hc (.inl (Option.isNone_iff_eq_none.mpr hfree)) hq]
      exact .move hc hfree (Connection.move_effect hq b.network.now b.network.hub)
    | some next =>
      cases action with
      | advance other =>
        have hstep : b.step (.act (.advance other)) = b.begin conn c next.1 next.2 := by
          simp only [step, h, hc, hfree, hq, Option.isSome_none, Bool.false_eq_true, false_and,
            if_false]
        rw [hstep]
        exact .begin hc hfree hq
      | _ => cases hq
  notice_eq := rfl
  occurrence_eq := occurrence_act h hc (.inl (Option.isNone_iff_eq_none.mpr hfree))

theorem takes_act (b : BusyNetwork) (action : Action) :
    ∃ who occurrence notice, b.Takes (.act action) who occurrence notice := by
  cases h : action.connection? with
  | none =>
    have hsilent : ∀ conn, b.occurrence conn (.act action) = .silent := by
      intro conn
      refine occurrence_of_ne ?_
      rw [h]
      exact fun hnone => nomatch hnone
    refine ⟨none, .silent, none, ?_, rfl, fun conn => ?_⟩
    · cases action with
      | connect session => exact .connect session
      | pass milliseconds => exact .pass milliseconds
      | _ => exact nomatch h
    · rw [ite_self]
      exact hsilent conn
  | some conn =>
    have hrest : b.step (.act action) = b → (∀ other, b.occurrence other (.act action) = .silent) →
        ∃ who occurrence notice, b.Takes (.act action) who occurrence notice :=
      fun hstep hsilent => ⟨none, .silent, none, takes_rest hstep rfl hsilent⟩
    cases hc : b.network.connections[conn]? with
    | none =>
      refine hrest (by simp only [step, h, hc]) ?_
      intro other
      by_cases heq : conn = other
      · subst heq
        simp only [occurrence, hc]
      · exact occurrence_of_ne fun hsome => heq (Option.some.inj (h.symm.trans hsome))
    | some c =>
      by_cases hclient : action.isOfClient = true
      · exact ⟨_, _, _, takes_ofClient h hc hclient⟩
      cases hfree : b.answering conn with
      | none => exact ⟨_, _, _, takes_of_free h hc hfree⟩
      | some answering =>
        refine hrest (by simp [step, h, hc, hfree, hclient]) ?_
        intro other
        by_cases heq : conn = other
        · subst heq
          simp [occurrence, hc, hfree, hclient]
        · exact occurrence_of_ne fun hsome => heq (Option.some.inj (h.symm.trans hsome))

/-- **Every step is a turn.** -/
theorem takes_step (b : BusyNetwork) (step : Step) :
    ∃ who occurrence notice, b.Takes step who occurrence notice := by
  cases step with
  | act action => exact takes_act b action
  | publish conn => exact takes_publish b conn
  | respond conn => exact takes_respond b conn

/-! ## Networks as busy networks -/

/-- The steps of an action that nothing comes between. -/
def Step.ofAction : Action → List Step
  | .advance conn => [.act (.advance conn), .publish conn, .respond conn]
  | action => [.act action]

/-- A network of connections none of which is in the middle of an answer. -/
def ofNetwork (network : Network) : BusyNetwork := { network }

/-- An answer is its three steps. -/
theorem answer_eq_respond (hub : Hub) (c : Connection) (text : List Char) :
    let applied := hub.directory.applyText text
    let directory := { hub.directory with store := applied.store }
    Connection.answer hub c text = c.respond
      { hub with directory :=
          match applied.change with
          | none => directory
          | some change => (directory.publish c.session.id change).2 } applied.response := by
  simp only [Connection.answer, Directory.handleText, Directory.handle, Directory.applyText]
  generalize Directory.apply hub.directory.policy hub.directory.store _ = applied
  obtain ⟨response, change?, store⟩ := applied
  cases change? <;> rfl

/-- The steps that follow when a request was taken. -/
theorem run_begin {c : Connection} (hc : b.network.connections[conn]? = some c)
    (hfree : b.answering conn = none) (text : List Char) (rest : Bytes) :
    (b.begin conn c text rest).run [.publish conn, .respond conn] =
      b.withNext conn (Connection.answer b.network.hub { c with inbox := rest } text) := by
  have hlength : conn < b.network.connections.length := (List.getElem?_eq_some_iff.mp hc).1
  rw [answer_eq_respond]
  unfold begin
  rw [show b.network.hub.directory.applyText text = b.directory.applyText text from rfl]
  generalize b.directory.applyText text = applied
  obtain ⟨response, change?, store⟩ := applied
  cases change? with
  | none =>
    simp [run, step, withAnswering, withConnection, withDirectory, withNext, hlength, directory,
      hfree]
  | some change =>
    simp [run, step, withAnswering, withConnection, withDirectory, withNext, hlength, directory,
      hfree]

theorem run_ofAction (network : Network) (action : Action) :
    (ofNetwork network).run (Step.ofAction action) = ofNetwork (network.act action) := by
  have hact : (∀ c, action.request? c = none) →
      (ofNetwork network).step (.act action) = ofNetwork (network.act action) := by
    intro hq
    cases h : action.connection? with
    | none => simp only [step, h, ofNetwork]
    | some conn =>
      cases hc : network.connections[conn]? with
      | none => simp only [step, h, ofNetwork, hc, Network.act_of_get_none h hc]
      | some c =>
        rw [step_act h hc (.inl rfl) (hq c), Network.act_of_get h hc]
        rfl
  cases action with
  | advance conn =>
    cases hc : network.connections[conn]? with
    | none =>
      have hnone : network.act (.advance conn) = network := Network.act_of_get_none rfl hc
      have hstep : (ofNetwork network).step (.act (.advance conn)) = ofNetwork network := by
        simp only [step, Action.connection?, ofNetwork, hc]
      rw [hnone]
      show ((ofNetwork network).step (.act (.advance conn))).run [.publish conn, .respond conn] = _
      rw [hstep]
      rfl
    | some c =>
      rw [Network.act_of_get rfl hc]
      show ((ofNetwork network).step (.act (.advance conn))).run [.publish conn, .respond conn] = _
      cases hq : c.request? with
      | none =>
        rw [@step_act (ofNetwork network) conn (.advance conn) c rfl hc (.inl rfl) hq]
        rfl
      | some next =>
        have hstep : (ofNetwork network).step (.act (.advance conn)) =
            (ofNetwork network).begin conn c next.1 next.2 := by
          simp only [step, Action.connection?, ofNetwork, hc, Action.request?, hq, Option.isSome_none,
            Bool.false_eq_true, false_and, if_false]
        have heffect := @Connection.effect_of_request c (.advance conn) next.1 next.2 hq
          network.now network.hub
        rw [hstep, run_begin hc rfl, heffect]
        rfl
  | _ => exact hact fun _ => rfl

/-- **A network is a busy network** in which every answer is finished before anything else happens. -/
theorem run_ofActions (network : Network) (actions : List Action) :
    (ofNetwork network).run (actions.flatMap Step.ofAction) = ofNetwork (network.run actions) := by
  induction actions generalizing network with
  | nil => rfl
  | cons action actions ih =>
    rw [List.flatMap_cons, run_append, run_ofAction, ih]
    rfl

end BusyNetwork

end ServiceDirectory
