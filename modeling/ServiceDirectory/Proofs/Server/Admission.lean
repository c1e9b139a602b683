import ServiceDirectory.Proofs.Network.Confinement
import ServiceDirectory.Proofs.Network.Counters
import ServiceDirectory.Server

/-!
# Admission

`Server.accept` admits a client and begins its connection at once, and `Server.serve` takes the places of
the connections that ended back at once.  Where many clients are served at the same time these are steps of
their own: between the moment at which a client is given its place and the moment at which its connection
begins, and between the end of a connection and the moment at which its place is free again, other clients
come and other connections go on.  A `BusyServer` is a server whose admissions may be under way in this
sense, over connections that may be in the middle of an answer.

Every place is free or held (`Roomy`), a connection gives its place back once and only after it has ended
(`Seats`), the sessions are numbered in the order of admission (`Numbered`), and the counters are the sum of
what the connections have in them and of the refusals (`BusyNetwork.Tallied`).

A server is a busy server in which nothing comes between (`run_accept`, `run_serve`).  One that was shut
down is one to which nobody comes any more.
-/

namespace ServiceDirectory

/-- A server with admissions under way. -/
structure BusyServer where
  busy : BusyNetwork
  /-- How many places are free; none stands for any number. -/
  places : Option Nat
  /-- The session of the next client. -/
  nextSession : SessionId := 1
  /-- The sessions of the clients that have been given their places and whose connections have not begun. -/
  waiting : List SessionId := []
  /-- Which of the connections have not given back their places. -/
  seated : List Bool := []

namespace BusyServer

/-- A step of one client, or of the connections. -/
inductive Step where
  /-- A client is given a place, or turned away. -/
  | accept
  /-- The connection of a client that was given a place begins. -/
  | begin (position : Nat)
  /-- The connections take a step that makes no new one. -/
  | go (step : BusyNetwork.Step)
  /-- A connection that has ended gives back its place. -/
  | release (conn : Nat)

/-- A client comes. -/
def Step.isAccept : Step → Bool
  | .accept => true
  | _ => false

/-- What is observed of a step. -/
inductive Event where
  | refused
  | admitted (session : SessionId)
  | released (conn : Nat)
  deriving DecidableEq

/-- The session that a client was given. -/
def Event.session? : Event → Option SessionId
  | .admitted session => some session
  | _ => none

/-- A place was given back. -/
def Event.isRelease : Event → Bool
  | .released _ => true
  | _ => false

/-- The sessions that were given to clients, in the order of admission. -/
def sessions (events : List Event) : List SessionId := events.filterMap Event.session?

/-- The same after a client was turned away. -/
def refuse (s : BusyServer) : BusyServer :=
  { s with busy :=
      { s.busy with network :=
          { s.busy.network with hub :=
              { s.busy.network.hub with metrics := s.busy.network.hub.metrics.connectionRefused } } } }

/-- The same after a client was given a place. -/
def enter (s : BusyServer) : BusyServer :=
  { s with
    places := s.places.map (· - 1)
    nextSession := s.nextSession + 1
    waiting := s.waiting ++ [s.nextSession] }

/-- The same after the connection of a client began. -/
def seat (s : BusyServer) (position : Nat) (session : SessionId) : BusyServer :=
  { s with
    busy := s.busy.step (.act (.connect session))
    waiting := s.waiting.eraseIdx position
    seated := s.seated ++ [true] }

/-- The same after a connection gave back its place. -/
def vacate (s : BusyServer) (conn : Nat) : BusyServer :=
  { s with places := s.places.map (· + 1), seated := s.seated.set conn false }

/-- The connection has ended and has not given back its place. -/
def hasToLeave (s : BusyServer) (conn : Nat) : Bool :=
  s.seated[conn]? = some true && (s.busy.network.connections[conn]?).any Connection.hasEnded

/-- Take a step; what is observed of it comes first. -/
def take (s : BusyServer) : Step → Option Event × BusyServer
  | .accept =>
    match s.places with
    | some 0 => (some .refused, s.refuse)
    | _ => (some (.admitted s.nextSession), s.enter)
  | .begin position =>
    match s.waiting[position]? with
    | some session => (none, s.seat position session)
    | none => (none, s)
  | .go step => (none, if step.isConnect then s else { s with busy := s.busy.step step })
  | .release conn => if s.hasToLeave conn then (some (.released conn), s.vacate conn) else (none, s)

/-- The server after a list of steps. -/
def run (s : BusyServer) (steps : List Step) : BusyServer :=
  steps.foldl (fun s step => (s.take step).2) s

/-- What is observed of a list of steps. -/
def events (s : BusyServer) : List Step → List Event
  | [] => []
  | step :: steps => (s.take step).1.toList ++ (s.take step).2.events steps

/-- How many clients have a place: their connections have not begun, or not ended, or have not given back
their places. -/
def unended (s : BusyServer) : Nat := s.waiting.length + s.seated.countP id

/-! ## Servers as busy servers -/

/-- A server with no admission under way. -/
def ofServer (server : Server) : BusyServer where
  busy := .ofNetwork server.network
  places := server.places
  nextSession := server.nextSession
  seated := server.network.connections.map fun c => !c.hasEnded

theorem run_append (s : BusyServer) (first second : List Step) :
    s.run (first ++ second) = (s.run first).run second :=
  List.foldl_append

/-- Steps of the connections that make no new one. -/
theorem run_go (s : BusyServer) {steps : List BusyNetwork.Step}
    (h : ∀ step ∈ steps, step.isConnect = false) :
    s.run (steps.map .go) = { s with busy := s.busy.run steps } := by
  induction steps generalizing s with
  | nil => rfl
  | cons step steps ih =>
    have hstep : (s.take (.go step)).2 = { s with busy := s.busy.step step } :=
      if_neg (by rw [h step (List.mem_cons_self ..)]; exact Bool.false_ne_true)
    show run (s.take (.go step)).2 (steps.map .go) = _
    rw [hstep, ih _ fun step hmem => h step (List.mem_cons_of_mem _ hmem)]
    rfl

/-- **Accepting a client** is to give it a place and to begin its connection at once. -/
theorem run_accept (server : Server) :
    (ofServer server).run [.accept, .begin 0] = ofServer server.accept.2 := by
  have henter : ((ofServer server).enter.take (.begin 0)).2 = ofServer
      { server with
        network := server.network.act (.connect server.nextSession)
        places := server.places.map (· - 1)
        nextSession := server.nextSession + 1 } := by
    have hseated : ∀ c : Connection, c.hasEnded = false →
        server.network.connections.map (fun c => !c.hasEnded) ++ [true] =
          (server.network.connections ++ [c]).map fun c => !c.hasEnded := by
      intro c hgoing
      rw [List.map_append, List.map_singleton, hgoing]
      rfl
    show BusyServer.mk _ _ _ _ (server.network.connections.map _ ++ [true]) = _
    rw [hseated (Connection.start _ server.nextSession server.network.now server.network.hub).2 rfl]
    rfl
  show (((ofServer server).take .accept).2.take (.begin 0)).2 = _
  have hplaces : (ofServer server).places = server.places := rfl
  unfold Server.accept
  cases hp : server.places with
  | none =>
    rw [hp] at hplaces henter
    simp only [take, hplaces]
    exact henter
  | some free =>
    rw [hp] at hplaces henter
    cases free with
    | zero =>
      simp only [take, hplaces]
      rfl
    | succ free =>
      simp only [take, hplaces]
      exact henter

/-- The steps of an action that makes no connection make none. -/
theorem isConnect_ofAction {action : Action} (h : (BusyNetwork.Step.act action).isConnect = false) :
    ∀ step ∈ BusyNetwork.Step.ofAction action, step.isConnect = false := by
  intro step hmem
  cases action with
  | connect session => cases h
  | advance conn =>
    simp only [BusyNetwork.Step.ofAction, List.mem_cons, List.not_mem_nil, or_false] at hmem
    rcases hmem with rfl | rfl | rfl <;> rfl
  | _ =>
    obtain rfl := List.mem_singleton.mp hmem
    rfl

/-- A connection that has ended does not begin again. -/
theorem hasEnded_effect {c : Connection} (h : c.hasEnded = true) (action : Action) (now : Nat)
    (hub : Hub) : (action.effect now hub c).2.hasEnded = true := by
  unfold Connection.hasEnded at h
  split at h
  · next hs =>
    obtain ⟨room, heffect⟩ := Action.effect_of_ended hs action
    simp only [heffect, Connection.hasEnded, hs]
  · cases h

/-- No place is taken back where the connections stay as they are. -/
theorem serve_of_same (server : Server) {f : Network → Network}
    (h : (f server.network).connections = server.network.connections) :
    server.serve f = { server with network := f server.network } := by
  have hlive : Server.live { server with network := f server.network } = server.live :=
    congrArg (List.countP _) h
  show Server.mk _ (server.places.map (· + (server.live - Server.live _))) _ _ = _
  rw [hlive, Nat.sub_self]
  simp only [Nat.add_zero, Option.map_id']

/-- The place of a connection is taken back if this is where it ends. -/
theorem serve_of_get (server : Server) {action : Action} {conn : Nat} {c : Connection}
    (h : action.connection? = some conn) (hc : server.network.connections[conn]? = some c) :
    let c' := (action.effect server.network.now server.network.hub c).2
    server.serve (fun network => network.act action) =
      { server with
        network := server.network.act action
        places := server.places.map (· + if !c.hasEnded && c'.hasEnded then 1 else 0) } := by
  intro c'
  have hcount := countP_set_add (p := fun c => decide ¬ c.hasEnded = true) hc c'
  have hkept : c.hasEnded = true → c'.hasEnded = true := fun hended => hasEnded_effect hended _ _ _
  have hfreed : server.live - Server.live { server with network := server.network.act action } =
      if !c.hasEnded && c'.hasEnded then 1 else 0 := by
    unfold Server.live
    rw [Network.act_of_get h hc]
    show _ - (server.network.connections.set conn c').countP _ = _
    revert hcount hkept
    cases c.hasEnded <;> cases c'.hasEnded <;> simp <;> omega
  show Server.mk _ (server.places.map (· + (server.live - Server.live _))) _ _ = _
  rw [hfreed]

/-- A connection that an action ends gives back its place, where it has one. -/
theorem take_release (server : Server) {action : Action} {conn : Nat} {c : Connection}
    (h : action.connection? = some conn) (hc : server.network.connections[conn]? = some c) :
    let c' := (action.effect server.network.now server.network.hub c).2
    (take { ofServer server with busy := .ofNetwork (server.network.act action) } (.release conn)).2 =
      ofServer { server with
        network := server.network.act action
        places := server.places.map (· + if !c.hasEnded && c'.hasEnded then 1 else 0) } := by
  intro c'
  have hmap : (server.network.act action).connections.map (fun c => !c.hasEnded) =
      (server.network.connections.map fun c => !c.hasEnded).set conn !c'.hasEnded := by
    rw [Network.act_of_get h hc, List.map_set]
  have hseat : (server.network.connections.map fun c => !c.hasEnded)[conn]? = some !c.hasEnded := by
    rw [List.getElem?_map, hc]
    rfl
  have hleaves : hasToLeave { ofServer server with
      busy := .ofNetwork (server.network.act action) } conn = (!c.hasEnded && c'.hasEnded) := by
    unfold hasToLeave
    show (decide ((server.network.connections.map fun c => !c.hasEnded)[conn]? = some true) &&
      ((server.network.act action).connections[conn]?).any Connection.hasEnded) = _
    rw [hseat, Network.getElem?_act h hc]
    cases c.hasEnded <;> rfl
  have hkept : c.hasEnded = true → c'.hasEnded = true := fun hended => hasEnded_effect hended _ _ _
  simp only [take, hleaves]
  by_cases hleft : (!c.hasEnded && c'.hasEnded) = true
  · have hended : c'.hasEnded = true := (Bool.and_eq_true_iff.mp hleft).2
    rw [hended] at hmap
    rw [if_pos hleft, if_pos hleft]
    show BusyServer.mk _ _ _ _ _ = BusyServer.mk _ _ _ _ _
    rw [hmap]
    rfl
  · have hsame : c'.hasEnded = c.hasEnded := by
      revert hleft hkept
      cases c.hasEnded <;> cases c'.hasEnded <;> simp
    obtain ⟨hlt, hget⟩ := List.getElem?_eq_some_iff.mp hseat
    rw [hsame, ← hget, List.set_getElem_self] at hmap
    rw [if_neg hleft, if_neg hleft]
    show BusyServer.mk _ _ _ _ _ = BusyServer.mk _ _ _ _ _
    rw [hmap]
    simp only [Nat.add_zero, Option.map_id']
    rfl

/-- **Serving clients** is to take back the place of a connection as soon as it has ended. -/
theorem run_serve (server : Server) {action : Action}
    (h : (BusyNetwork.Step.act action).isConnect = false) :
    (ofServer server).run ((BusyNetwork.Step.ofAction action).map .go ++
        action.connection?.toList.map .release) =
      ofServer (server.serve fun network => network.act action) := by
  have hbusy : (ofServer server).busy.run (BusyNetwork.Step.ofAction action) =
      .ofNetwork (server.network.act action) := BusyNetwork.run_ofAction server.network action
  rw [run_append, run_go _ (isConnect_ofAction h), hbusy]
  cases hconn : action.connection? with
  | none =>
    cases action with
    | connect session => cases h
    | pass milliseconds =>
      rw [serve_of_same server rfl]
      rfl
    | _ => cases hconn
  | some conn =>
    show (take { ofServer server with busy := .ofNetwork (server.network.act action) }
      (.release conn)).2 = _
    cases hc : server.network.connections[conn]? with
    | none =>
      have hact : server.network.act action = server.network := Network.act_of_get_none hconn hc
      have hstays : (ofServer server).hasToLeave conn = false := by
        simp [hasToLeave, ofServer, hc]
      rw [serve_of_same server (congrArg Network.connections hact), hact]
      show ((ofServer server).take (.release conn)).2 = _
      simp only [take, hstays, Bool.false_eq_true, if_false]
    | some c =>
      rw [serve_of_get server hconn hc]
      exact take_release server hconn hc

/-! ## What a step can do -/

/-- A step of a busy server, with what is observed of it. -/
inductive Turn (s : BusyServer) : Option Event → BusyServer → Prop where
  | rest : Turn s none s
  | refuse (full : s.places = some 0) : Turn s (some .refused) s.refuse
  | enter (free : s.places ≠ some 0) : Turn s (some (.admitted s.nextSession)) s.enter
  | seat {position : Nat} {session : SessionId} (get_eq : s.waiting[position]? = some session) :
      Turn s none (s.seat position session)
  | go {step : BusyNetwork.Step} (old : step.isConnect = false) :
      Turn s none { s with busy := s.busy.step step }
  | vacate {conn : Nat} {c : Connection} (seated : s.seated[conn]? = some true)
      (get_eq : s.busy.network.connections[conn]? = some c) (ended : c.hasEnded = true) :
      Turn s (some (.released conn)) (s.vacate conn)

variable {s s' : BusyServer} {event : Option Event} {conn : Nat} {c : Connection}

theorem hasToLeave_iff : s.hasToLeave conn = true ↔ s.seated[conn]? = some true ∧
    ∃ c, s.busy.network.connections[conn]? = some c ∧ c.hasEnded = true := by
  unfold hasToLeave
  rw [Bool.and_eq_true, decide_eq_true_iff, Option.any_eq_true]

/-- **Every step is a turn.** -/
theorem turn_take (s : BusyServer) (step : Step) : s.Turn (s.take step).1 (s.take step).2 := by
  cases step with
  | accept =>
    simp only [take]
    split
    · next hfull => exact .refuse hfull
    · next hfree => exact .enter hfree
  | begin position =>
    simp only [take]
    split
    · next hget => exact .seat hget
    · exact .rest
  | go step =>
    simp only [take]
    split
    · exact .rest
    · next hold => exact .go (Bool.eq_false_iff.mpr hold)
  | release conn =>
    simp only [take]
    split
    · next hleaves =>
      obtain ⟨hseated, c, hc, hended⟩ := hasToLeave_iff.mp hleaves
      exact .vacate hseated hc hended
    · exact .rest

/-- A connection goes on in every step, and one that has ended does not begin again. -/
theorem connection_go {b : BusyNetwork} (hc : b.network.connections[conn]? = some c)
    (step : BusyNetwork.Step) :
    ∃ c', (b.step step).network.connections[conn]? = some c' ∧ c.Continues c' ∧
      (c.hasEnded = true → c'.hasEnded = true) := by
  obtain ⟨who, occurrence, notice, htakes⟩ := BusyNetwork.takes_step b step
  obtain ⟨c', hc', hcontinues, hsame⟩ := BusyNetwork.connection_turn hc htakes.turn
  refine ⟨c', hc', hcontinues, fun hended => ?_⟩
  by_cases hwho : who = some conn
  · subst hwho
    obtain ⟨d, hd, hown⟩ := BusyNetwork.own_of_turn hc htakes.turn
    obtain rfl := Option.some.inj (hd.symm.trans hc')
    exact hown.hasEnded hended
  · rw [hsame hwho]
    exact hended

/-! ## Places -/

theorem unended_enter (s : BusyServer) : s.enter.unended = s.unended + 1 := by
  show (s.waiting ++ [s.nextSession]).length + s.seated.countP id = _
  rw [List.length_append, List.length_singleton, Nat.add_right_comm]
  rfl

theorem unended_seat {position : Nat} {session : SessionId}
    (h : s.waiting[position]? = some session) : (s.seat position session).unended = s.unended := by
  have hlt : position < s.waiting.length := (List.getElem?_eq_some_iff.mp h).1
  show (s.waiting.eraseIdx position).length + (s.seated ++ [true]).countP id = s.waiting.length + _
  rw [List.length_eraseIdx_of_lt hlt, List.countP_append, List.countP_singleton]
  simp only [id, if_true]
  omega

theorem unended_vacate (h : s.seated[conn]? = some true) :
    (s.vacate conn).unended + 1 = s.unended := by
  have hcount := countP_set_add (p := id) h false
  show s.waiting.length + (s.seated.set conn false).countP id + 1 = s.waiting.length + _
  simp only [id, if_true, Bool.false_eq_true, if_false] at hcount
  omega

/-- Where places are limited, every place is free or held. -/
structure Roomy (s : BusyServer) (limit : Nat) : Prop where
  unlimited : s.places = none ↔ limit = 0
  limited : ∀ free, s.places = some free → free + s.unended = limit

theorem Roomy.turn {limit : Nat} (h : s.Roomy limit) (ht : s.Turn event s') : s'.Roomy limit := by
  cases ht with
  | rest => exact h
  | refuse _ => exact ⟨h.unlimited, h.limited⟩
  | enter hfree =>
    refine ⟨Option.map_eq_none_iff.trans h.unlimited, fun free hplaces => ?_⟩
    obtain ⟨before, hbefore, rfl⟩ := Option.map_eq_some_iff.mp hplaces
    have hlimit := h.limited before hbefore
    have hpos : before ≠ 0 := by
      rintro rfl
      exact hfree hbefore
    rw [unended_enter]
    omega
  | seat hget =>
    refine ⟨h.unlimited, fun free hplaces => ?_⟩
    rw [unended_seat hget]
    exact h.limited free hplaces
  | go _ => exact ⟨h.unlimited, h.limited⟩
  | vacate hseated _ _ =>
    refine ⟨Option.map_eq_none_iff.trans h.unlimited, fun free hplaces => ?_⟩
    obtain ⟨before, hbefore, rfl⟩ := Option.map_eq_some_iff.mp hplaces
    have hlimit := h.limited before hbefore
    have hone := unended_vacate hseated
    omega

theorem Roomy.unended_le {limit : Nat} (h : s.Roomy limit) (hpos : 0 < limit) :
    s.unended ≤ limit := by
  cases hp : s.places with
  | none => exact absurd (h.unlimited.mp hp) (Nat.ne_of_gt hpos)
  | some free =>
    have hlimit := h.limited free hp
    omega

theorem take_accept_of_full (h : s.places = some 0) : s.take .accept = (some .refused, s.refuse) := by
  simp only [take, h]

/-- A client is turned away where no place is free. -/
theorem refused_iff : (s.take .accept).1 = some .refused ↔ s.places = some 0 := by
  refine ⟨fun hrefused => ?_, fun hfull => congrArg Prod.fst (take_accept_of_full hfull)⟩
  simp only [take] at hrefused
  split at hrefused
  · next hfull => exact hfull
  · cases hrefused

/-- There is no place left where as many clients have one as may. -/
theorem Roomy.full_iff {limit : Nat} (h : s.Roomy limit) :
    s.places = some 0 ↔ 0 < limit ∧ s.unended = limit := by
  cases hp : s.places with
  | none =>
    have hlimit := h.unlimited.mp hp
    simp only [reduceCtorEq, false_iff]
    omega
  | some free =>
    have hlimit := h.limited free hp
    have hpos : limit ≠ 0 := fun hzero => nomatch hp.symm.trans (h.unlimited.mpr hzero)
    rw [Option.some.injEq]
    omega

/-! ## Giving back -/

theorem sessions_append (first second : List Event) :
    sessions (first ++ second) = sessions first ++ sessions second :=
  List.filterMap_append

/-- A connection gives back its place once, and only after it has ended. -/
structure Seats (s : BusyServer) (events : List Event) : Prop where
  length_eq : s.seated.length = s.busy.network.connections.length
  ended : ∀ (conn : Nat) (c : Connection), s.seated[conn]? = some false →
    s.busy.network.connections[conn]? = some c → c.hasEnded = true
  released : ∀ conn, events.count (.released conn) = if s.seated[conn]? = some false then 1 else 0
  unended : s.unended + events.countP Event.isRelease = (sessions events).length

/-- A connection that has just begun has its place. -/
theorem getElem?_append_true (seated : List Bool) (conn : Nat) :
    (seated ++ [true])[conn]? = some false ↔ seated[conn]? = some false := by
  rcases Nat.lt_or_ge conn seated.length with hlt | hge
  · rw [List.getElem?_append_left hlt]
  · rw [List.getElem?_append_right hge, List.getElem?_eq_none hge, List.getElem?_singleton]
    split <;> simp

theorem Seats.seat {events : List Event} {position : Nat} {session : SessionId} (h : s.Seats events)
    (hget : s.waiting[position]? = some session) : (s.seat position session).Seats events where
  length_eq := by
    show (s.seated ++ [true]).length = (s.busy.network.connections ++ [_]).length
    rw [List.length_append, List.length_append, h.length_eq]
    rfl
  ended := by
    intro conn c hseat hc
    have hbefore := (getElem?_append_true s.seated conn).mp hseat
    have hlt : conn < s.busy.network.connections.length :=
      h.length_eq ▸ (List.getElem?_eq_some_iff.mp hbefore).1
    change (s.busy.network.connections ++ [_])[conn]? = some c at hc
    rw [List.getElem?_append_left hlt] at hc
    exact h.ended conn c hbefore hc
  released := by
    intro conn
    rw [h.released conn]
    exact if_congr (getElem?_append_true s.seated conn).symm rfl rfl
  unended := by
    rw [unended_seat hget]
    exact h.unended

theorem Seats.go {events : List Event} {step : BusyNetwork.Step} (h : s.Seats events)
    (hold : step.isConnect = false) : Seats { s with busy := s.busy.step step } events where
  length_eq := by
    rw [BusyNetwork.length_step, hold, h.length_eq]
    rfl
  ended := by
    intro conn c' hseat hc'
    have hlt : conn < s.busy.network.connections.length :=
      h.length_eq ▸ (List.getElem?_eq_some_iff.mp hseat).1
    obtain ⟨d, hd, -, hended⟩ := connection_go (List.getElem?_eq_getElem hlt) step
    obtain rfl := Option.some.inj (hd.symm.trans hc')
    exact hended (h.ended conn _ hseat (List.getElem?_eq_getElem hlt))
  released := h.released
  unended := h.unended

theorem Seats.vacate {events : List Event} (h : s.Seats events) (hseat : s.seated[conn]? = some true)
    (hc : s.busy.network.connections[conn]? = some c) (hended : c.hasEnded = true) :
    (s.vacate conn).Seats (events ++ [.released conn]) := by
  have hself : (s.seated.set conn false)[conn]? = some false :=
    List.getElem?_set_self (List.getElem?_eq_some_iff.mp hseat).1
  have hother : ∀ {other : Nat}, conn ≠ other → (s.seated.set conn false)[other]? = s.seated[other]? :=
    fun hne => List.getElem?_set_ne hne
  refine ⟨List.length_set.trans h.length_eq, fun other d hd hget => ?_, fun other => ?_, ?_⟩
  · by_cases heq : conn = other
    · subst heq
      obtain rfl := Option.some.inj (hc.symm.trans hget)
      exact hended
    · exact h.ended other d ((hother heq).symm.trans hd) hget
  · show _ = if (s.seated.set conn false)[other]? = some false then 1 else 0
    rw [List.count_append, h.released other]
    by_cases heq : conn = other
    · subst heq
      rw [hself, hseat, List.count_singleton_self]
      rfl
    · have hne : ¬ (Event.released conn == Event.released other) = true := by simpa using heq
      rw [hother heq, List.count_singleton, if_neg hne]
      rfl
  · have hbefore := h.unended
    have hone := unended_vacate hseat
    rw [List.countP_append, sessions_append, List.length_append]
    show _ + (_ + 1) = _ + 0
    omega

theorem Seats.released_le {events : List Event} (h : s.Seats events) (conn : Nat) :
    events.count (.released conn) ≤ 1 := by
  rw [h.released conn]
  split <;> decide

theorem Seats.ended_of_released {events : List Event} (h : s.Seats events)
    (hmem : .released conn ∈ events) :
    ∃ c, s.busy.network.connections[conn]? = some c ∧ c.hasEnded = true := by
  have hpos : 0 < events.count (.released conn) := List.count_pos_iff.mpr hmem
  rw [h.released conn] at hpos
  split at hpos
  · next hseat =>
    have hlt : conn < s.busy.network.connections.length :=
      h.length_eq ▸ (List.getElem?_eq_some_iff.mp hseat).1
    have hget := List.getElem?_eq_getElem hlt
    exact ⟨_, hget, h.ended conn _ hseat hget⟩
  · cases hpos

/-- A connection that has ended has given back its place, or it can. -/
theorem Seats.release {events : List Event} (h : s.Seats events)
    (hc : s.busy.network.connections[conn]? = some c) (hended : c.hasEnded = true) :
    (events ++ (s.take (.release conn)).1.toList).count (.released conn) = 1 := by
  have hlt : conn < s.seated.length := h.length_eq ▸ (List.getElem?_eq_some_iff.mp hc).1
  have hseat : s.seated[conn]? = some s.seated[conn] := List.getElem?_eq_getElem hlt
  rw [List.count_append, h.released conn]
  cases hheld : s.seated[conn] with
  | true =>
    rw [hheld] at hseat
    have hleaves : s.hasToLeave conn = true := hasToLeave_iff.mpr ⟨hseat, c, hc, hended⟩
    simp only [take, hleaves, hseat, if_true]
    rw [Option.toList_some, List.count_singleton_self]
    rfl
  | false =>
    rw [hheld] at hseat
    have hstays : s.hasToLeave conn = false := by
      simp only [hasToLeave, hseat]
      rfl
    simp only [take, hstays, hseat, Bool.false_eq_true, if_true, if_false]
    rfl

/-- **Every step keeps it so.** -/
theorem Seats.turn {events : List Event} (h : s.Seats events) (ht : s.Turn event s') :
    s'.Seats (events ++ event.toList) := by
  cases ht with
  | rest =>
    rw [Option.toList_none, List.append_nil]
    exact h
  | refuse _ =>
    refine ⟨h.length_eq, h.ended, fun conn => ?_, ?_⟩
    · rw [List.count_append, h.released conn]
      rfl
    · rw [List.countP_append, sessions_append, List.length_append]
      exact h.unended
  | enter _ =>
    refine ⟨h.length_eq, h.ended, fun conn => ?_, ?_⟩
    · rw [List.count_append, h.released conn]
      rfl
    · have hbefore := h.unended
      rw [List.countP_append, sessions_append, List.length_append, unended_enter]
      show s.unended + 1 + (_ + 0) = _ + 1
      omega
  | seat hget =>
    rw [Option.toList_none, List.append_nil]
    exact h.seat hget
  | go hold =>
    rw [Option.toList_none, List.append_nil]
    exact h.go hold
  | vacate hseat hc hended => exact h.vacate hseat hc hended

/-! ## Sessions -/

/-- The sessions are 1, 2, 3 and so on in the order of admission, and those of the connections and of the
clients that wait for theirs are these. -/
structure Numbered (s : BusyServer) (events : List Event) : Prop where
  next_eq : s.nextSession = UInt64.ofNat ((sessions events).length + 1)
  sessions_eq : sessions events =
    (List.range (sessions events).length).map fun i => UInt64.ofNat (i + 1)
  perm : (s.busy.network.connections.map (·.session.id) ++ s.waiting).Perm (sessions events)

/-- Where nobody is given a session. -/
theorem Numbered.quiet {events : List Event} {event : Event} (h : s.Numbered events)
    (hnone : event.session? = none) : s.Numbered (events ++ [event]) := by
  have hsame : sessions (events ++ [event]) = sessions events := by
    unfold sessions
    rw [List.filterMap_append, List.filterMap_cons_none hnone]
    exact List.append_nil _
  exact ⟨hsame ▸ h.next_eq, hsame ▸ h.sessions_eq, hsame ▸ h.perm⟩

/-- Connections that go on keep their sessions. -/
theorem sessions_go {b : BusyNetwork} {step : BusyNetwork.Step} (h : step.isConnect = false) :
    (b.step step).network.connections.map (·.session.id) =
      b.network.connections.map (·.session.id) := by
  have hlength : (b.step step).network.connections.length = b.network.connections.length := by
    rw [BusyNetwork.length_step, h]
    rfl
  refine List.ext_getElem (by rw [List.length_map, List.length_map, hlength]) fun conn _ hlt => ?_
  rw [List.length_map] at hlt
  obtain ⟨c', hc', hcontinues, -⟩ := connection_go (List.getElem?_eq_getElem hlt) step
  obtain ⟨_, hget⟩ := List.getElem?_eq_some_iff.mp hc'
  rw [List.getElem_map, List.getElem_map, hget]
  exact hcontinues.session.id_eq

theorem Numbered.turn {events : List Event} (h : s.Numbered events) (ht : s.Turn event s') :
    s'.Numbered (events ++ event.toList) := by
  cases ht with
  | rest =>
    rw [Option.toList_none, List.append_nil]
    exact h
  | refuse _ =>
    have hquiet : s.Numbered (events ++ [.refused]) := h.quiet rfl
    exact ⟨hquiet.next_eq, hquiet.sessions_eq, hquiet.perm⟩
  | enter _ =>
    have hnext : sessions (events ++ [.admitted s.nextSession]) = sessions events ++ [s.nextSession] :=
      sessions_append _ _
    rw [Option.toList_some]
    refine ⟨?_, ?_, ?_⟩
    · rw [hnext, List.length_append]
      show s.nextSession + 1 = _
      rw [h.next_eq]
      exact (UInt64.ofNat_add _ 1).symm
    · rw [hnext, List.length_append, List.length_singleton, List.range_succ, List.map_append,
        ← h.sessions_eq, h.next_eq]
      rfl
    · rw [hnext]
      show (s.busy.network.connections.map _ ++ (s.waiting ++ [s.nextSession])).Perm _
      rw [← List.append_assoc]
      exact h.perm.append_right _
  | @seat position session hget =>
    rw [Option.toList_none, List.append_nil]
    refine ⟨h.next_eq, h.sessions_eq, ?_⟩
    obtain ⟨hlt, hwaiting⟩ := List.getElem?_eq_some_iff.mp hget
    have hperm := List.getElem_cons_eraseIdx_perm hlt
    rw [hwaiting] at hperm
    show ((s.busy.network.connections ++ [_]).map _ ++ s.waiting.eraseIdx position).Perm _
    rw [List.map_append, List.append_assoc]
    exact (hperm.append_left _).trans h.perm
  | go hold =>
    rw [Option.toList_none, List.append_nil]
    refine ⟨h.next_eq, h.sessions_eq, ?_⟩
    show ((s.busy.step _).network.connections.map _ ++ _).Perm _
    rw [sessions_go hold]
    exact h.perm
  | @vacate conn _ _ _ _ =>
    have hquiet : s.Numbered (events ++ [.released conn]) := h.quiet rfl
    exact ⟨hquiet.next_eq, hquiet.sessions_eq, hquiet.perm⟩

/-! ## Every moment of every run -/

/-- All that is kept by the steps of a server with given settings. -/
structure Kept (s : BusyServer) (config : Config) (events : List Event) : Prop where
  room : s.Roomy config.maxConnections
  unrefused : config.maxConnections = 0 → .refused ∉ events
  seats : s.Seats events
  numbered : s.Numbered events
  tallied : s.busy.Tallied { refused := UInt64.ofNat (events.count .refused) }
  config_eq : s.busy.network.config = config
  configs_eq : ∀ (conn : Nat) (c : Connection), s.busy.network.connections[conn]? = some c →
    c.config = config

theorem tallied_refuse {rest : Metrics} (h : s.busy.Tallied rest) :
    s.refuse.busy.Tallied (rest + { refused := 1 }) where
  serving := h.serving
  settled := h.settled
  balanced := by
    have hbalanced : s.busy.network.hub.metrics = _ := h.balanced
    show s.busy.network.hub.metrics.connectionRefused =
      (s.busy.network.connections.map Connection.share).sum + (rest + _)
    rw [← add_assoc, ← hbalanced]
    ext <;> simp [Metrics.connectionRefused]

/-- The counters after a step, of which the refusals are counted apart. -/
theorem tallied_turn {events : List Event}
    (h : s.busy.Tallied { refused := UInt64.ofNat (events.count .refused) }) (ht : s.Turn event s') :
    s'.busy.Tallied { refused := UInt64.ofNat ((events ++ event.toList).count .refused) } := by
  have hstep : ∀ step : BusyNetwork.Step, (s.busy.step step).Tallied
      { refused := UInt64.ofNat (events.count .refused) } := by
    intro step
    obtain ⟨who, occurrence, notice, htakes⟩ := BusyNetwork.takes_step s.busy step
    exact h.turn htakes.turn
  cases ht with
  | rest =>
    rw [Option.toList_none, List.append_nil]
    exact h
  | refuse _ =>
    have hcount : UInt64.ofNat ((events ++ [Event.refused]).count .refused) =
        UInt64.ofNat (events.count .refused) + 1 := by
      rw [List.count_append]
      exact UInt64.ofNat_add _ 1
    rw [Option.toList_some, hcount]
    exact tallied_refuse h
  | enter _ =>
    rw [Option.toList_some, List.count_append]
    exact h
  | @seat _ session _ =>
    rw [Option.toList_none, List.append_nil]
    exact hstep (.act (.connect session))
  | go _ =>
    rw [Option.toList_none, List.append_nil]
    exact hstep _
  | vacate _ _ _ =>
    rw [Option.toList_some, List.count_append]
    exact h

/-- The settings stay as they are. -/
theorem configs_turn {config : Config} (h : s.busy.network.config = config)
    (hcs : ∀ (conn : Nat) (c : Connection), s.busy.network.connections[conn]? = some c →
      c.config = config)
    (ht : s.Turn event s') : s'.busy.network.config = config ∧
      ∀ (conn : Nat) (c : Connection), s'.busy.network.connections[conn]? = some c →
        c.config = config := by
  cases ht with
  | seat _ =>
    refine ⟨h, fun conn c hc => ?_⟩
    change (s.busy.network.connections ++ [_])[conn]? = some c at hc
    rcases List.mem_append.mp (List.mem_of_getElem? hc) with hold | hnew
    · obtain ⟨other, hother⟩ := List.getElem?_of_mem hold
      exact hcs other c hother
    · obtain rfl := List.mem_singleton.mp hnew
      exact h
  | @go step hold =>
    obtain ⟨who, occurrence, notice, htakes⟩ := BusyNetwork.takes_step s.busy step
    refine ⟨(BusyNetwork.config_turn htakes.turn).trans h, fun conn c' hc' => ?_⟩
    have hlt : conn < (s.busy.step step).network.connections.length :=
      (List.getElem?_eq_some_iff.mp hc').1
    rw [BusyNetwork.length_step, hold] at hlt
    obtain ⟨d, hd, hcontinues, -⟩ := connection_go (List.getElem?_eq_getElem hlt) step
    obtain rfl := Option.some.inj (hd.symm.trans hc')
    exact hcontinues.config_eq.trans (hcs conn _ (List.getElem?_eq_getElem hlt))
  | _ => exact ⟨h, hcs⟩

theorem Kept.turn {config : Config} {events : List Event} (h : s.Kept config events)
    (ht : s.Turn event s') : s'.Kept config (events ++ event.toList) := by
  obtain ⟨hconfig, hconfigs⟩ := configs_turn h.config_eq h.configs_eq ht
  refine ⟨h.room.turn ht, fun hlimit hmem => ?_, h.seats.turn ht, h.numbered.turn ht,
    tallied_turn h.tallied ht, hconfig, hconfigs⟩
  rcases List.mem_append.mp hmem with hold | hnew
  · exact h.unrefused hlimit hold
  · cases ht with
    | refuse hfull => exact nomatch hfull.symm.trans (h.room.unlimited.mpr hlimit)
    | _ => simp at hnew

/-- **The run**: at every moment it is so. -/
theorem Kept.run {config : Config} {events : List Event} (h : s.Kept config events)
    (steps : List Step) : (s.run steps).Kept config (events ++ s.events steps) := by
  induction steps generalizing s events with
  | nil =>
    show s.Kept config (events ++ [])
    rwa [List.append_nil]
  | cons step steps ih =>
    have hrest := ih (h.turn (turn_take s step))
    rw [List.append_assoc] at hrest
    exact hrest

theorem roomy_start (config : Config) (store : Store) :
    (ofServer (Server.start config store)).Roomy config.maxConnections := by
  have hplaces : (ofServer (Server.start config store)).places =
      if config.maxConnections = 0 then none else some config.maxConnections := rfl
  have hnobody : (ofServer (Server.start config store)).unended = 0 := rfl
  refine ⟨?_, fun free hfree => ?_⟩
  · rw [hplaces]
    split <;> simp [*]
  · rw [hplaces] at hfree
    split at hfree
    · cases hfree
    · rw [hnobody, Nat.add_zero, Option.some.inj hfree]

theorem kept_start (config : Config) (store : Store) :
    (ofServer (Server.start config store)).Kept config [] where
  room := roomy_start config store
  unrefused := fun _ => List.not_mem_nil
  seats := ⟨rfl, fun _ _ h => (nomatch h), fun _ => rfl, rfl⟩
  numbered := ⟨rfl, rfl, .refl _⟩
  tallied := BusyNetwork.tallied_start config store
  config_eq := rfl
  configs_eq := fun _ _ h => (nomatch h)

/-- Whoever comes is given a session or turned away. -/
theorem length_sessions_add (s : BusyServer) (steps : List Step) :
    (sessions (s.events steps)).length + (s.events steps).count .refused =
      steps.countP Step.isAccept := by
  induction steps generalizing s with
  | nil => rfl
  | cons step steps ih =>
    have hone : (sessions (s.take step).1.toList).length + (s.take step).1.toList.count .refused =
        if step.isAccept then 1 else 0 := by
      cases step with
      | accept =>
        simp only [take]
        split <;> rfl
      | begin position =>
        simp only [take]
        split <;> rfl
      | go step => rfl
      | release conn =>
        simp only [take]
        split <;> rfl
    have hrest := ih (s.take step).2
    show (sessions (_ ++ _)).length + List.count Event.refused (_ ++ _) = _
    rw [sessions_append, List.length_append, List.count_append, List.countP_cons]
    omega

theorem events_concat (s : BusyServer) (steps : List Step) (step : Step) :
    s.events (steps ++ [step]) = s.events steps ++ ((s.run steps).take step).1.toList := by
  induction steps generalizing s with
  | nil => exact List.append_nil _
  | cons first steps ih =>
    show _ ++ (s.take first).2.events (steps ++ [step]) = (_ ++ _) ++ _
    rw [ih, List.append_assoc]
    rfl

/-- Whoever has not ended holds a place. -/
theorem countP_going_le {seated : List Bool} {connections : List Connection}
    (hlength : seated.length = connections.length)
    (hended : ∀ (conn : Nat) (c : Connection), seated[conn]? = some false →
      connections[conn]? = some c → c.hasEnded = true) :
    connections.countP (fun c => !c.hasEnded) ≤ seated.countP id := by
  induction connections generalizing seated with
  | nil => exact Nat.zero_le _
  | cons c connections ih =>
    obtain ⟨held, seated, rfl⟩ := List.exists_cons_of_length_eq_add_one hlength
    have hrest := ih (Nat.succ.inj hlength) fun conn d hseat hd => hended (conn + 1) d hseat hd
    have hfirst : held = false → c.hasEnded = true := fun hheld => hended 0 c (congrArg some hheld) rfl
    rw [List.countP_cons, List.countP_cons]
    revert hfirst
    cases held <;> cases c.hasEnded <;> simp <;> omega

/-- Fewer numbers than a word has are different words. -/
theorem nodup_numbers {n : Nat} (h : n < 2 ^ 64) :
    ((List.range n).map fun i => UInt64.ofNat (i + 1)).Nodup := by
  refine List.nodup_range.map_on fun i hi j hj heq => ?_
  have hword : ∀ k ∈ List.range n, (UInt64.ofNat (k + 1)).toNat = k + 1 :=
    fun k hk => Nat.mod_eq_of_lt (Nat.lt_of_le_of_lt (List.mem_range.mp hk) h)
  have hnumbers := congrArg UInt64.toNat heq
  rw [hword i hi, hword j hj] at hnumbers
  exact Nat.succ.inj hnumbers

theorem Kept.active_le {config : Config} {events : List Event} (h : s.Kept config events) :
    s.busy.network.hub.metrics.active.toNat ≤
      s.unended + s.busy.network.connections.countP Connection.brokeOff := by
  have hbalanced : s.busy.network.hub.metrics = _ := h.tallied.balanced
  rw [BusyNetwork.sum_share] at hbalanced
  have hgoing := countP_going_le h.seats.length_eq h.seats.ended
  have hactive : s.busy.network.hub.metrics.active.toNat ≤
      s.busy.network.connections.countP Connection.isCounted := by
    rw [hbalanced, Metrics.active_add, UInt64.add_zero]
    exact Nat.mod_le _ _
  rw [Connection.countP_isCounted] at hactive
  unfold unended
  omega

theorem Kept.refused_eq {config : Config} {events : List Event} (h : s.Kept config events)
    (hfew : events.count .refused < 2 ^ 64) :
    s.busy.network.hub.metrics.refused.toNat = events.count .refused := by
  have hbalanced : s.busy.network.hub.metrics = _ := h.tallied.balanced
  rw [BusyNetwork.sum_share] at hbalanced
  rw [hbalanced, Metrics.refused_add, UInt64.zero_add]
  exact Nat.mod_eq_of_lt hfew

theorem Kept.broken {config : Config} {events : List Event} (h : s.Kept config events)
    (hc : c ∈ s.busy.network.connections) (hbroken : c.brokeOff = true) :
    2 ^ 63 ≤ config.maxMessageSize.toNat + 14 ∨
      ∃ idle, config.idleTimeout = some idle ∧ clockEnd ≤ c.session.lastActivity + idle := by
  obtain ⟨conn, hget⟩ := List.getElem?_of_mem hc
  have hcause := ((h.tallied.settled c hc).placed.broken hbroken).2
  rw [h.configs_eq conn c hget] at hcause
  exact hcause

/-- **No more clients than may be there.**  Whatever the settings and the table, whatever happens to the
clients and however their arrivals (of which there are fewer than a word has values), the steps of the
connections and their ends interleave, at every moment:

* those who were given a place and have not given it back are at most as many as may be, and so are the
  connections served at present where none has broken off.  Those that have broken off are counted beside
  them; a connection breaks off only where the limit on messages lets a frame through that no buffer
  holds, or where the clock does not reach the moment until which the connection is to wait;
* the next client is turned away if and only if there is a limit and exactly as many as may be have a place;
  that is counted, and nothing else comes of it, so that the refusals counted are those that there were, and
  where there is no limit there are none;
* a connection gives its place back once, and only after it has ended, and when it has ended it can;
* the sessions are 1, 2, 3 and so on in the order of admission, no two of them the same, and they are those
  of the connections and of the clients whose connections have not begun. -/
theorem admitted_run (config : Config) (store : Store) (steps : List Step)
    (hfew : steps.countP Step.isAccept < 2 ^ 64) :
    let start := ofServer (Server.start config store)
    let last := start.run steps
    let events := start.events steps
    let connections := last.busy.network.connections
    let metrics := last.busy.network.hub.metrics
    let limit := config.maxConnections
    (last.unended + events.countP Event.isRelease = (sessions events).length ∧
        (0 < limit → last.unended ≤ limit) ∧
        metrics.active.toNat ≤ last.unended + connections.countP Connection.brokeOff ∧
        ((∀ c ∈ connections, c.brokeOff = false) → 0 < limit → metrics.active.toNat ≤ limit) ∧
        ∀ c ∈ connections, c.brokeOff = true → 2 ^ 63 ≤ config.maxMessageSize.toNat + 14 ∨
          ∃ idle, config.idleTimeout = some idle ∧ clockEnd ≤ c.session.lastActivity + idle) ∧
      (((last.take .accept).1 = some .refused ↔ 0 < limit ∧ last.unended = limit) ∧
        ((last.take .accept).1 = some .refused → (last.take .accept).2 = { last with
          busy := { last.busy with
            network := { last.busy.network with
              hub := { last.busy.network.hub with
                metrics := { metrics with refused := metrics.refused + 1 } } } } }) ∧
        metrics.refused.toNat = events.count .refused ∧ (limit = 0 → .refused ∉ events)) ∧
      ((∀ conn, events.count (.released conn) ≤ 1) ∧
        (∀ conn, .released conn ∈ events → ∃ c, connections[conn]? = some c ∧ c.hasEnded = true) ∧
        ∀ conn c, connections[conn]? = some c → c.hasEnded = true →
          (start.events (steps ++ [.release conn])).count (.released conn) = 1) ∧
      sessions events = (List.range (sessions events).length).map (fun i => UInt64.ofNat (i + 1)) ∧
        (sessions events).Nodup ∧
        (connections.map (·.session.id) ++ last.waiting).Perm (sessions events) := by
  intro start last events connections metrics limit
  have hkept : last.Kept config events := (kept_start config store).run steps
  have hcame : (sessions events).length + events.count .refused = _ := length_sessions_add start steps
  have hlimit : 0 < limit → last.unended ≤ limit := hkept.room.unended_le
  refine ⟨⟨hkept.seats.unended, hlimit, hkept.active_le, fun hwhole hpos => ?_,
      fun c hc => hkept.broken hc⟩,
    ⟨refused_iff.trans hkept.room.full_iff, fun hrefused => ?_, hkept.refused_eq (by omega),
      hkept.unrefused⟩,
    ⟨hkept.seats.released_le, fun conn => hkept.seats.ended_of_released, fun conn c hc hended => ?_⟩,
    hkept.numbered.sessions_eq, ?_, hkept.numbered.perm⟩
  · have hnone : connections.countP Connection.brokeOff = 0 :=
      List.countP_eq_zero.mpr fun c hc => by simp [hwhole c hc]
    have hactive : metrics.active.toNat ≤ last.unended + connections.countP Connection.brokeOff :=
      hkept.active_le
    rw [hnone] at hactive
    exact Nat.le_trans hactive (hlimit hpos)
  · rw [take_accept_of_full (refused_iff.mp hrefused)]
    rfl
  · rw [events_concat]
    exact hkept.seats.release hc hended
  · rw [hkept.numbered.sessions_eq]
    exact nodup_numbers (by omega)

/-- Where one client may be there, another is turned away until the first has left and given back its
place. -/
theorem admitted_of_one_place :
    let config : Config := { maxConnections := 1 }
    let start := ofServer (Server.start config)
    let steps : List Step := [.accept, .begin 0, .accept, .go (.act (.endInput 0)), .accept, .release 0,
      .accept]
    let last := start.run steps
    let events := start.events steps
    steps.countP Step.isAccept < 2 ^ 64 ∧
      events = [.admitted 1, .refused, .refused, .released 0, .admitted 2] ∧
      last.unended = 1 ∧ (0 < config.maxConnections → last.unended ≤ config.maxConnections) ∧
      last.busy.network.hub.metrics.refused.toNat = events.count .refused ∧
      ((last.take .accept).1 = some .refused ↔
        0 < config.maxConnections ∧ last.unended = config.maxConnections) ∧
      events.count (.released 0) ≤ 1 ∧ (sessions events).Nodup := by
  intro config start steps last events
  have hfew : steps.countP Step.isAccept < 2 ^ 64 := by decide
  obtain ⟨⟨-, hlimit, -⟩, ⟨hrefused, -, hcount, -⟩, ⟨honce, -⟩, -, hnodup, -⟩ :=
    admitted_run config .empty steps hfew
  exact ⟨hfew, by decide +kernel, by decide +kernel, hlimit, hcount, hrefused, honce 0, hnodup⟩

/-- Where one client may be there and a frame may be of any size, the first client sends the beginning of
one that no buffer can hold.  It gives back its place, another takes it, and two are counted. -/
theorem two_in_one_place :
    let config := boundless.withMaxConnections 1
    let last := (ofServer (Server.start config)).run [.accept, .begin 0,
      .go (.act (.receive 0 upgradeRequest)), .go (.act (.advance 0)),
      .go (.act (.receive 0 boundlessFrame)), .go (.act (.advance 0)), .release 0, .accept, .begin 0]
    (config.maxConnections, last.unended, last.busy.network.hub.metrics.active) = (1, 1, 2) := by
  decide +kernel

end BusyServer

end ServiceDirectory
