import ServiceDirectory.Proofs.Network.Confinement
import ServiceDirectory.Proofs.Network.Sessions

/-!
# Idle clients

An open connection is closed where its client was idle for as long as the configuration says.  Since when a
client is idle is kept with its session, and only what arrives while the connection serves its client sets
that (`Connection.receive`): neither bytes of the upgrade request nor the upgrade itself do.

So the time runs from the last arrival on the open connection, and where there was none from the moment at
which the client connected (`BusyNetwork.idle_run`).  Who has sent something since the upgrade is never
closed early.  Who has not may be closed as soon as the upgrade is done, however much of the time it took
(`BusyNetwork.closed_after_upgrade`).
-/

namespace ServiceDirectory

/-- The connection serves its client. -/
def Connection.isServing (c : Connection) : Bool :=
  match c.stage with
  | .serving _ => true
  | _ => false

theorem Connection.isServing_of_stage {c : Connection} {receiver : Option Receiver}
    (h : c.stage = .serving receiver) : c.isServing = true := by
  simp only [isServing, h]

/-! ## The times of a session -/

/-- Two sessions agree on all that has to do with time. -/
structure Session.SameTimes (session other : Session) : Prop where
  phase_eq : session.phase = other.phase
  connected_eq : session.connectedAt = other.connectedAt
  opened_eq : session.openedAt = other.openedAt
  activity_eq : session.lastActivity = other.lastActivity

namespace Connection

variable {now : Nat} {hub : Hub} {c : Connection} {occurrence : Occurrence}

/-- The time of the last activity after an occurrence, for a connection that serves its client. -/
def activityAfter (now : Nat) (c : Connection) (occurrence : Occurrence) : Nat :=
  if occurrence.bytes = [] then c.session.lastActivity else now

/-- What is done to the times of a connection that waits for its upgrade request. -/
inductive Waits (now : Nat) (c : Connection) (occurrence : Occurrence) (c' : Connection) : Prop where
  | ends (ended : c'.hasEnded = true)
  | stays (stage_eq : c'.stage = c.stage) (times : c'.session.SameTimes c.session)
  | opens {receiver : Option Receiver} {session : Session} (silent : occurrence = .silent)
      (times : session.SameTimes c.session) (session_eq : c'.session = session.becomeOpen now)
      (stage_eq : c'.stage = .serving receiver)

/-- What is done to the times of a connection that serves its client. -/
inductive Serves (now : Nat) (c : Connection) (occurrence : Occurrence) (c' : Connection) : Prop where
  | ends (ended : c'.hasEnded = true)
  | stays {receiver : Option Receiver} (stage_eq : c'.stage = .serving receiver)
      (connected_eq : c'.session.connectedAt = c.session.connectedAt)
      (opened_eq : c'.session.openedAt = c.session.openedAt)
      (activity_eq : c'.session.lastActivity = c.activityAfter now occurrence)

variable {next : Hub × Connection}

theorem hasEnded_writeThen {bytes : Bytes} {result : Except Failure Unit} (hub : Hub) (c : Connection) :
    (writeThen hub c bytes fun hub c => finish hub c result).2.hasEnded = true :=
  writeThen_cases (P := fun next => next.2.hasEnded = true) (fun _ _ _ => rfl) (fun _ _ _ _ _ _ => rfl)

theorem waits_of_move {handshake : Upgrade.Handshake} (hs : c.stage = .handshaking handshake)
    (h : Move now hub c occurrence next) : c.Waits now occurrence next.2 := by
  have hsame : c.session.SameTimes c.session := ⟨rfl, rfl, rfl, rfl⟩
  cases h with
  | rest => exact .stays rfl hsame
  | receive bytes =>
    show c.Waits now _ (c.receive now bytes)
    unfold receive
    split
    · exact .stays rfl hsame
    · rw [hs]
      exact .stays hs.symm ⟨rfl, rfl, rfl, rfl⟩
  | limit room => exact .stays rfl hsame
  | @conclude _ outcome _ _ _ =>
    unfold conclude
    apply writeThen_cases (P := fun next => c.Waits now .silent next.2)
    · intro outlet _ _
      cases outcome with
      | accepted value =>
        have hsent : (c.session.addSent (Upgrade.Outcome.accepted value).response.length).SameTimes
            c.session := ⟨rfl, rfl, rfl, rfl⟩
        exact .opens rfl hsent rfl rfl
      | refused cause => exact .ends rfl
    · intro outlet front _ _ _ _
      exact .ends rfl
  | leaveEarly _ => exact .ends rfl
  | loseEarly _ => exact .ends rfl
  | timeOut _ => exact .ends rfl
  | timeOutAnswering _ _ _ => exact .ends rfl
  -- every other move is one of a connection that serves its client
  | breakOff hs' _ => exact nomatch hs.symm.trans hs'
  | violation hs' _ => exact nomatch hs.symm.trans hs'
  | fault hs' _ _ => exact nomatch hs.symm.trans hs'
  | ping hs' _ _ => exact nomatch hs.symm.trans hs'
  | pong hs' _ _ => exact nomatch hs.symm.trans hs'
  | close hs' _ _ => exact nomatch hs.symm.trans hs'
  | lag hs' _ _ => exact nomatch hs.symm.trans hs'
  | skip hs' _ _ _ => exact nomatch hs.symm.trans hs'
  | tell hs' _ _ _ => exact nomatch hs.symm.trans hs'
  | leave hs' => exact nomatch hs.symm.trans hs'
  | lose hs' => exact nomatch hs.symm.trans hs'
  | idle hs' => exact nomatch hs.symm.trans hs'

theorem waits_message {c' : Connection} (hs : c'.stage = c.stage)
    (ht : c'.session.SameTimes c.session) (hub : Hub) (bytes : Bytes) :
    c.Waits now occurrence (writeThen hub c' bytes stay).2 := by
  apply writeThen_cases (P := fun next => c.Waits now occurrence next.2)
  · intro outlet _ _
    exact .stays hs ⟨ht.phase_eq, ht.connected_eq, ht.opened_eq, ht.activity_eq⟩
  · intro outlet front _ _ _ _
    exact .ends rfl

/-- A message that is written, and nothing else. -/
theorem serves_message {receiver : Option Receiver} {c' : Connection}
    (hs : c'.stage = .serving receiver) (ht : c'.session.SameTimes c.session)
    (ho : occurrence.bytes = []) (hub : Hub) (bytes : Bytes) :
    c.Serves now occurrence (writeThen hub c' bytes stay).2 := by
  apply writeThen_cases (P := fun next => c.Serves now occurrence next.2)
  · intro outlet _ _
    refine .stays hs ht.connected_eq ht.opened_eq ?_
    rw [activityAfter, if_pos ho]
    exact ht.activity_eq
  · intro outlet front _ _ _ _
    exact .ends rfl

theorem serves_receive {receiver : Option Receiver} (hs : c.stage = .serving receiver) (now : Nat)
    (bytes : Bytes) : c.Serves now (.arrival bytes) (c.receive now bytes) := by
  unfold receive
  split
  · next hnone => exact .stays hs rfl rfl (if_pos hnone).symm
  · next hsome =>
    rw [hs]
    exact .stays rfl rfl rfl (if_neg hsome).symm

theorem serves_of_move {receiver : Option Receiver} (hs : c.stage = .serving receiver)
    (h : Move now hub c occurrence next) : c.Serves now occurrence next.2 := by
  have hsame : c.session.SameTimes c.session := ⟨rfl, rfl, rfl, rfl⟩
  cases h with
  | rest => exact .stays hs rfl rfl rfl
  | receive bytes => exact serves_receive hs now bytes
  | limit room => exact .stays hs rfl rfl rfl
  | breakOff _ _ => exact .ends rfl
  | violation _ _ => exact .ends rfl
  | fault _ _ _ => exact .ends rfl
  | ping _ _ _ =>
    apply serves_message
    · exact hs
    · exact hsame
    · rfl
  | pong _ _ _ => exact .stays hs rfl rfl rfl
  | close _ _ _ => exact .ends (hasEnded_writeThen hub _)
  | lag _ _ _ => exact .stays rfl rfl rfl rfl
  | skip _ _ _ _ => exact .stays rfl rfl rfl rfl
  | tell _ _ _ _ =>
    apply serves_message
    · rfl
    · exact hsame
    · rfl
  | leave _ => exact .ends rfl
  | lose _ => exact .ends rfl
  | idle _ => exact .ends (hasEnded_writeThen hub _)
  -- every other move is one of a connection that waits for its upgrade request
  | conclude hs' _ => exact nomatch hs.symm.trans hs'
  | leaveEarly hs' => exact nomatch hs.symm.trans hs'
  | loseEarly hs' => exact nomatch hs.symm.trans hs'
  | timeOut hs' => exact nomatch hs.symm.trans hs'
  | timeOutAnswering hs' _ _ => exact nomatch hs.symm.trans hs'

end Connection

/-! ## Arrivals -/

namespace BusyNetwork

/-- The moments at which bytes of a client arrived while its connection was in some state. -/
def arrivals (state : Connection → Bool) (conn : Nat) (b : BusyNetwork) (steps : List Step) : List Nat :=
  history (fun b step =>
    if (b.occurrence conn step).bytes ≠ [] ∧ b.network.connections[conn]?.any state then
      [b.network.now] else []) b steps

variable {start b : BusyNetwork} {conn : Nat} {c c' : Connection} {steps : List Step} {step : Step}
  {occurrence : Connection.Occurrence} {answering : Option Answering} {now : Nat}
  {all served : List Nat}

theorem arrivals_of_silent (state : Connection → Bool)
    (h : (start.run steps).occurrence conn step = .silent) :
    arrivals state conn start (steps ++ [step]) = arrivals state conn start steps := by
  rw [arrivals, history_concat, h, if_neg fun hcond => hcond.1 rfl, List.append_nil]
  rfl

/-- The moment of an occurrence, if it is an arrival. -/
def moment (now : Nat) (occurrence : Connection.Occurrence) : List Nat :=
  if occurrence.bytes = [] then [] else [now]

theorem arrivals_concat {state : Connection → Bool}
    (hc : (start.run steps).network.connections[conn]? = some c)
    (ho : (start.run steps).occurrence conn step = occurrence) :
    arrivals state conn start (steps ++ [step]) = arrivals state conn start steps ++
      if state c then moment (start.run steps).network.now occurrence else [] := by
  rw [arrivals, history_concat, ho, hc, Option.any_some, moment]
  show arrivals state conn start steps ++ _ = _
  by_cases hbytes : occurrence.bytes = [] <;> by_cases hstate : state c <;> simp [hbytes, hstate]

/-! ## Since when a client is idle -/

/-- The times that are kept of a connection, at a moment, beside the moments at which bytes of its client
arrived: all of these, and those at which the connection served its client. -/
inductive Timed (now : Nat) (all served : List Nat) (c : Connection) : Prop where
  | waiting {handshake : Upgrade.Handshake} (stage_eq : c.stage = .handshaking handshake)
      (phase_eq : c.session.phase = .handshaking)
      (activity_eq : c.session.lastActivity = c.session.connectedAt)
      (connected_le : c.session.connectedAt ≤ now) (served_eq : served = [])
      (all_le : ∀ moment ∈ all, moment ≤ now)
  | serving {receiver : Option Receiver} {opened : Nat} (stage_eq : c.stage = .serving receiver)
      (opened_eq : c.session.openedAt = some opened) (connected_le : c.session.connectedAt ≤ opened)
      (opened_le : opened ≤ now)
      (activity_eq : c.session.lastActivity = served.getLastD c.session.connectedAt)
      (activity_le : c.session.lastActivity ≤ now)
      (served_le : ∀ moment ∈ served, opened ≤ moment ∧ moment ≤ c.session.lastActivity)
      (all_le : ∀ moment ∈ all, moment ≤ opened ∨ moment ∈ served)
  | ended (ended : c.hasEnded = true)

/-- Time passes. -/
theorem Timed.later {after : Nat} (h : Timed now all served c) (hle : now ≤ after) :
    Timed after all served c := by
  cases h with
  | waiting stage_eq phase_eq activity_eq connected_le served_eq all_le =>
    exact .waiting stage_eq phase_eq activity_eq (Nat.le_trans connected_le hle) served_eq
      fun moment hm => Nat.le_trans (all_le moment hm) hle
  | serving stage_eq opened_eq connected_le opened_le activity_eq activity_le served_le all_le =>
    exact .serving stage_eq opened_eq connected_le (Nat.le_trans opened_le hle) activity_eq
      (Nat.le_trans activity_le hle) served_le all_le
  | ended ended => exact .ended ended

/-- What a connection does in a turn of its own, as far as it has to do with time. -/
theorem waits_of_own {handshake : Upgrade.Handshake} (hs : c.stage = .handshaking handshake)
    (h : b.Own conn c occurrence answering c') : c.Waits b.network.now occurrence c' := by
  cases h with
  | receive bytes =>
    exact @Connection.waits_of_move _ b.network.hub _ _ _ _ hs (.receive bytes)
  | limit room => exact .stays rfl ⟨rfl, rfl, rfl, rfl⟩
  | move _ hmove => exact Connection.waits_of_move hs hmove
  | begin _ hq =>
    obtain ⟨receiver, frame, hs', -⟩ := Connection.advance_of_request hq
    exact nomatch hs.symm.trans hs'
  | publish _ => exact .stays rfl ⟨rfl, rfl, rfl, rfl⟩
  | respond _ =>
    unfold Connection.respond
    apply Connection.waits_message
    · rfl
    · exact ⟨rfl, rfl, rfl, rfl⟩

theorem serves_of_own {receiver : Option Receiver} (hs : c.stage = .serving receiver)
    (h : b.Own conn c occurrence answering c') : c.Serves b.network.now occurrence c' := by
  cases h with
  | receive bytes => exact Connection.serves_receive hs _ bytes
  | limit room => exact .stays hs rfl rfl rfl
  | move _ hmove => exact Connection.serves_of_move hs hmove
  | begin _ hq =>
    obtain ⟨_, frame, -, -, -, hwork, -⟩ := Connection.advance_of_request hq
    refine .stays hs rfl rfl ?_
    rw [hwork]
    rfl
  | publish _ => exact .stays hs rfl rfl rfl
  | respond _ =>
    unfold Connection.respond
    apply Connection.serves_message
    · exact hs
    · exact ⟨rfl, rfl, rfl, rfl⟩
    · rfl

theorem eq_of_mem_moment {m : Nat} (h : m ∈ moment now occurrence) : m = now := by
  unfold moment at h
  split at h
  · cases h
  · exact List.mem_singleton.mp h

/-- A turn of a connection that waits for its upgrade request. -/
theorem Timed.own_waiting {handshake : Upgrade.Handshake} (stage_eq : c.stage = .handshaking handshake)
    (phase_eq : c.session.phase = .handshaking)
    (activity_eq : c.session.lastActivity = c.session.connectedAt)
    (connected_le : c.session.connectedAt ≤ b.network.now) (all_le : ∀ m ∈ all, m ≤ b.network.now)
    (ho : b.Own conn c occurrence answering c') :
    Timed b.network.now (all ++ moment b.network.now occurrence) [] c' := by
  have hle : ∀ m ∈ all ++ moment b.network.now occurrence, m ≤ b.network.now := by
    intro m hm
    rcases List.mem_append.mp hm with hm | hm
    · exact all_le m hm
    · exact Nat.le_of_eq (eq_of_mem_moment hm)
  cases waits_of_own stage_eq ho with
  | ends ended => exact .ended ended
  | stays stage_eq' times =>
    refine .waiting (stage_eq'.trans stage_eq) (times.phase_eq.trans phase_eq) ?_ ?_ rfl hle
    · rw [times.activity_eq, times.connected_eq]
      exact activity_eq
    · rw [times.connected_eq]
      exact connected_le
  | @opens receiver session _ times session_eq stage_eq' =>
    -- the session becomes open here, and the time of its last activity stays as it is
    have hopen : c'.session = { session with phase := .opened, openedAt := some b.network.now } := by
      rw [session_eq, Session.becomeOpen, if_pos (times.phase_eq.trans phase_eq)]
    have hconnected : c'.session.connectedAt = c.session.connectedAt := by
      rw [hopen]
      exact times.connected_eq
    have hactivity : c'.session.lastActivity = c.session.connectedAt := by
      rw [hopen]
      exact times.activity_eq.trans activity_eq
    refine .serving stage_eq' (by rw [hopen]) (hconnected ▸ connected_le) (Nat.le_refl _) ?_ ?_ ?_ ?_
    · rw [hconnected]
      exact hactivity
    · rw [hactivity]
      exact connected_le
    · exact fun m hm => (List.not_mem_nil hm).elim
    · exact fun m hm => .inl (hle m hm)

/-- A turn of a connection that serves its client. -/
theorem Timed.own_serving {receiver : Option Receiver} {opened : Nat}
    (stage_eq : c.stage = .serving receiver) (opened_eq : c.session.openedAt = some opened)
    (connected_le : c.session.connectedAt ≤ opened) (opened_le : opened ≤ b.network.now)
    (activity_eq : c.session.lastActivity = served.getLastD c.session.connectedAt)
    (activity_le : c.session.lastActivity ≤ b.network.now)
    (served_le : ∀ m ∈ served, opened ≤ m ∧ m ≤ c.session.lastActivity)
    (all_le : ∀ m ∈ all, m ≤ opened ∨ m ∈ served)
    (ho : b.Own conn c occurrence answering c') :
    Timed b.network.now (all ++ moment b.network.now occurrence)
      (served ++ moment b.network.now occurrence) c' := by
  cases serves_of_own stage_eq ho with
  | ends ended => exact .ended ended
  | stays stage_eq' connected_eq opened_eq' activity_eq' =>
    have hopened := opened_eq'.trans opened_eq
    rw [← connected_eq] at connected_le activity_eq
    by_cases hbytes : occurrence.bytes = []
    · have hnone : moment b.network.now occurrence = [] := if_pos hbytes
      rw [Connection.activityAfter, if_pos hbytes] at activity_eq'
      rw [← activity_eq'] at activity_eq activity_le served_le
      rw [hnone, List.append_nil, List.append_nil]
      exact .serving stage_eq' hopened connected_le opened_le activity_eq activity_le served_le all_le
    · have hsome : moment b.network.now occurrence = [b.network.now] := if_neg hbytes
      rw [Connection.activityAfter, if_neg hbytes] at activity_eq'
      rw [hsome]
      refine .serving stage_eq' hopened connected_le opened_le ?_ (Nat.le_of_eq activity_eq') ?_ ?_
      · rw [activity_eq', List.getLastD_concat]
      · rw [activity_eq']
        intro m hm
        rcases List.mem_append.mp hm with hm | hm
        · exact ⟨(served_le m hm).1, Nat.le_trans (served_le m hm).2 activity_le⟩
        · obtain rfl := List.mem_singleton.mp hm
          exact ⟨opened_le, Nat.le_refl _⟩
      · intro m hm
        rcases List.mem_append.mp hm with hm | hm
        · exact (all_le m hm).imp_right (List.mem_append_left _)
        · exact .inr (List.mem_append_right _ hm)

/-- A turn of the connection. -/
theorem Timed.own (h : Timed b.network.now all served c)
    (ho : b.Own conn c occurrence answering c') :
    Timed b.network.now (all ++ moment b.network.now occurrence)
      (served ++ if c.isServing then moment b.network.now occurrence else []) c' := by
  cases h with
  | ended ended => exact .ended (ho.hasEnded ended)
  | waiting stage_eq phase_eq activity_eq connected_le served_eq all_le =>
    have hwaits : c.isServing = false := by simp only [Connection.isServing, stage_eq]
    rw [hwaits, served_eq]
    exact own_waiting stage_eq phase_eq activity_eq connected_le all_le ho
  | serving stage_eq opened_eq connected_le opened_le activity_eq activity_le served_le all_le =>
    rw [Connection.isServing_of_stage stage_eq, if_pos rfl]
    exact own_serving stage_eq opened_eq connected_le opened_le activity_eq activity_le served_le
      all_le ho

variable {config : Config} {store : Store} {d : Nat}

/-- **What is kept of the times of a connection in every run.** -/
theorem timed_run (conn : Nat) (steps : List Step)
    (hc : ((ofNetwork (Network.start config store)).run steps).network.connections[conn]? = some c) :
    let start := ofNetwork (Network.start config store)
    c.config = config ∧ Timed (start.run steps).network.now (arrivals (fun _ => true) conn start steps)
      (arrivals Connection.isServing conn start steps) c := by
  intro start
  refine @forall_connection config store
    (fun steps => ∀ state, arrivals state conn start steps = [])
    (fun steps _ c => c.config = config ∧ Timed (start.run steps).network.now
      (arrivals (fun _ => true) conn start steps) (arrivals Connection.isServing conn start steps) c)
    conn ?_ ?_ ?_ ?_ ?_ steps c hc
  · exact fun _ => rfl
  · intro steps step hnone hsilent state
    rw [arrivals_of_silent state hsilent]
    exact hnone state
  · intro steps step session hnone b
    refine ⟨rfl, ?_⟩
    rw [hnone, hnone]
    exact .waiting rfl rfl rfl (now_le_concat start steps step) rfl fun m hm => nomatch hm
  · intro steps step answering c ⟨hconfig, htimed⟩ hsilent
    refine ⟨hconfig, ?_⟩
    rw [arrivals_of_silent _ hsilent, arrivals_of_silent _ hsilent]
    exact htimed.later (now_le_concat start steps step)
  · intro steps step occurrence answering c c' b ⟨hconfig, htimed⟩ hc hseen hown hcontinues
    refine ⟨hcontinues.config_eq.trans hconfig, ?_⟩
    rw [arrivals_concat hc hseen, arrivals_concat hc hseen]
    exact (htimed.own hown).later (now_le_concat start steps step)

/-! ## When an idle client is closed -/

theorem effect_expire {receiver : Option Receiver} (hs : c.stage = .serving receiver)
    (hd : c.config.idleTimeout = some d) (now : Nat) (hub : Hub) :
    (Action.expire conn).effect now hub c =
      if c.session.lastActivity + d ≤ now then c.expire hub else (hub, c) := by
  simp only [Action.effect, Network.whenDue, Connection.deadline?, Connection.idleDeadline?, hs, hd, Option.map_some]

/-- **When an idle client is closed.**  The deadline of a connection that serves its client comes so long
after the last arrival since the upgrade, and after the moment at which the client connected if there was
none: from then on an idle client is closed, and before nothing is done.  Who has sent something since the
upgrade was silent for the whole time then, and is not closed within that time of the upgrade. -/
theorem idle_run {receiver : Option Receiver} (hd : config.idleTimeout = some d) (steps : List Step)
    (hc : ((ofNetwork (Network.start config store)).run steps).network.connections[conn]? = some c)
    (hs : c.stage = .serving receiver) :
    let start := ofNetwork (Network.start config store)
    let now := (start.run steps).network.now
    let arrived := arrivals (fun _ => true) conn start steps
    let served := arrivals Connection.isServing conn start steps
    ∃ opened, c.session.openedAt = some opened ∧ c.session.connectedAt ≤ opened ∧
      (∀ hub, (Action.expire conn).effect now hub c =
        if served.getLastD c.session.connectedAt + d ≤ now then c.expire hub else (hub, c)) ∧
      (served.getLastD c.session.connectedAt + d ≤ now →
        c.session.connectedAt + d ≤ now ∧ (∀ moment ∈ served, moment + d ≤ now) ∧
          (served ≠ [] → opened + d ≤ now ∧ ∀ moment ∈ arrived, moment + d ≤ now)) := by
  intro start now arrived served
  obtain ⟨hconfig, htimed⟩ := timed_run conn steps hc
  cases htimed with
  | waiting stage_eq _ _ _ _ _ => exact nomatch hs.symm.trans stage_eq
  | ended ended => simp [Connection.hasEnded, hs] at ended
  | @serving receiver' opened _ opened_eq connected_le opened_le activity_eq activity_le served_le all_le =>
    refine ⟨opened, opened_eq, connected_le, ?_, ?_⟩
    · intro hub
      rw [← activity_eq]
      exact effect_expire hs (hconfig ▸ hd) now hub
    · intro hdue
      rw [← activity_eq] at hdue
      have hserved : ∀ moment ∈ served, opened + d ≤ now ∧ moment + d ≤ now := by
        intro moment hm
        have hbetween := served_le moment hm
        omega
      refine ⟨?_, fun moment hm => (hserved moment hm).2, fun hsome => ?_⟩
      · -- without arrivals the activity is the moment of connecting
        cases hlast : served.getLast? with
        | none =>
          have hnone : served = [] := List.getLast?_eq_none_iff.mp hlast
          rw [activity_eq] at hdue
          change served.getLastD _ + d ≤ now at hdue
          rwa [hnone] at hdue
        | some moment =>
          have hopened := (hserved moment (List.mem_of_getLast? hlast)).1
          omega
      · obtain ⟨first, hfirst⟩ := List.exists_mem_of_ne_nil served hsome
        have hopened := (hserved first hfirst).1
        refine ⟨hopened, fun moment hm => ?_⟩
        rcases all_le moment hm with hle | hmem
        · omega
        · exact (hserved moment hmem).2

/-- A client is upgraded at 3 and sends a ping at 1003; it is closed at 2003. -/
theorem idle_of_ping :
    let config : Config := { idleTimeout := some 1000 }
    let start := ofNetwork (Network.start config)
    let steps := [.act (.connect 1), .act (.pass 3), .act (.receive 0 upgradeRequest),
      .act (.advance 0), .act (.pass 1000), .act (.receive 0 [0x89, 0x80, 0, 0, 0, 0]),
      .act (.advance 0), .act (.pass 1000)]
    config.idleTimeout = some 1000 ∧
      ∃ c receiver, (start.run steps).network.connections[0]? = some c ∧
        c.stage = .serving receiver ∧
        ∃ opened, c.session.openedAt = some opened ∧ c.session.connectedAt ≤ opened ∧
          (∀ hub, (Action.expire 0).effect 2003 hub c = c.expire hub) ∧ opened + 1000 ≤ 2003 := by
  intro config start steps
  have hfacts : ((start.run steps).network.connections[0]?.map Connection.isServing,
      (start.run steps).network.now, arrivals Connection.isServing 0 start steps) =
      (some true, 2003, [1003]) := by
    decide +kernel
  obtain ⟨hserving, hrest⟩ := Prod.mk.inj hfacts
  obtain ⟨hnow, hserved⟩ := Prod.mk.inj hrest
  obtain ⟨c, hc, hopen⟩ := Option.map_eq_some_iff.mp hserving
  unfold Connection.isServing at hopen
  split at hopen
  · next receiver hs =>
    obtain ⟨opened, hopened, hle, heffect, hbounds⟩ :=
      @idle_run 0 c config .empty 1000 receiver rfl steps hc hs
    have hdue : [1003].getLastD c.session.connectedAt + 1000 ≤ 2003 := by
      show 1003 + 1000 ≤ 2003
      omega
    rw [hnow, hserved] at hbounds heffect
    refine ⟨rfl, c, receiver, hc, hs, opened, hopened, hle, fun hub => ?_, ?_⟩
    · rw [heffect hub, if_pos hdue]
    · exact ((hbounds hdue).2.2 (List.cons_ne_nil _ _)).1
  · cases hopen

/-- The client connects at 0 and is upgraded when two thirds of the time are over; then it is closed
before it was idle for as long as the configuration says. -/
theorem closed_after_upgrade :
    let config : Config := { idleTimeout := some 1500000000, handshakeTimeout := 1700000000 }
    let start := ofNetwork (Network.start config)
    let steps := [.act (.connect 1), .act (.pass 1000000000), .act (.receive 0 upgradeRequest),
      .act (.advance 0), .act (.pass 1000000000)]
    let observed := fun c : Connection =>
      (c.session.openedAt, c.isServing, c.hasEnded,
        c.outlet.pieces.head? == some (WebSocket.Frame.writeClose (some .goingAway)))
    ((start.run steps).network.connections[0]?.map observed,
      (start.run (steps ++ [.act (.expire 0)])).network.connections[0]?.map observed,
      arrivals (fun _ => true) 0 start steps, (start.run steps).network.now) =
      (some (some 1000000000, true, false, false), some (some 1000000000, false, true, true),
        [1000000000], 2000000000) ∧
    ¬ 1000000000 + 1500000000 ≤ 2000000000 := by
  refine ⟨?_, by omega⟩
  decide +kernel

end BusyNetwork

end ServiceDirectory
