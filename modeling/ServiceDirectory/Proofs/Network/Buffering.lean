import ServiceDirectory.Proofs.Network.Idleness
import ServiceDirectory.Proofs.Upgrade.Arrival

/-!
# What a server holds of its clients' bytes

A connection reads when it waits: it is not in the middle of an answer, and the bytes it has are neither a
whole request head nor a whole frame (`BusyNetwork.waits`).  What it has then is less than the head or the
frame that it would accept at most, so it is bounded by the limits of the configuration.

A step that is not a read only takes bytes away (`Connection.retains_of_move`).  So a connection that reads
when it waits, and at no other time, never holds more than those bounds and what it read last
(`BusyNetwork.length_inbox_run`).
-/

namespace ServiceDirectory

open WebSocket (Frame)
open Upgrade (Handshake)

/-- The bytes of the largest request head, or of the largest frame but for one. -/
def Config.retention (config : Config) : Nat :=
  max config.maxHeadSize (13 + config.maxMessageSize.toNat)

namespace Connection

variable {now : Nat} {hub : Hub} {c c' : Connection} {occurrence : Occurrence} {arrived : Bytes}

theorem exists_of_isServing (h : c.isServing = true) : ∃ receiver, c.stage = .serving receiver := by
  unfold isServing at h
  split at h
  next receiver hs => exact ⟨receiver, hs⟩
  next => cases h

/-- What a step does to the bytes that were received and not worked on: it may add those that arrive, and
it may take bytes away.  It does not begin a handshake. -/
structure Retains (arrived : Bytes) (c c' : Connection) : Prop where
  length_le : c'.inbox.length ≤ c.inbox.length + arrived.length
  stage_eq : ∀ handshake, c'.stage = .handshaking handshake → c.stage = .handshaking handshake

theorem Retains.of_inbox (hinbox : c'.inbox.length ≤ c.inbox.length) (hstage : c'.stage = c.stage) :
    c.Retains [] c' :=
  ⟨hinbox, fun _ hs => hstage.symm.trans hs⟩

theorem Retains.of_stage (hinbox : c'.inbox.length ≤ c.inbox.length)
    (hstage : ∀ handshake, c'.stage ≠ .handshaking handshake) : c.Retains [] c' :=
  ⟨hinbox, fun handshake hs => (hstage handshake hs).elim⟩

theorem Retains.refl (c : Connection) : c.Retains [] c := .of_inbox (Nat.le_refl _) rfl

/-- A message that is written takes nothing away. -/
theorem Retains.message (h : c.Retains arrived c') (hub : Hub) (bytes : Bytes) :
    c.Retains arrived (writeThen hub c' bytes stay).2 :=
  writeThen_cases (P := fun next => c.Retains arrived next.2)
    (fun _ _ _ => ⟨h.length_le, h.stage_eq⟩) (fun _ _ _ _ _ _ => ⟨h.length_le, fun _ hs => nomatch hs⟩)

theorem Retains.closing (h : c'.inbox.length ≤ c.inbox.length) (hub : Hub) (bytes : Bytes) :
    c.Retains [] (writeThen hub c' bytes fun hub c => finish hub c (.ok ())).2 :=
  writeThen_cases (P := fun next => c.Retains [] next.2)
    (fun _ _ _ => .of_stage h nofun) (fun _ _ _ _ _ _ => .of_stage h nofun)

theorem Retains.conclude (h : c'.inbox.length ≤ c.inbox.length) (now : Nat) (hub : Hub)
    (outcome : Upgrade.Outcome) : c.Retains [] (conclude now hub c' outcome).2 := by
  apply writeThen_cases (P := fun next => c.Retains [] next.2)
  · intro outlet _ _
    cases outcome with
    | accepted value => exact .of_stage h nofun
    | refused cause => exact .of_stage h nofun
  · exact fun _ _ _ _ _ _ => .of_stage h nofun

theorem retains_receive (now : Nat) (c : Connection) (bytes : Bytes) :
    c.Retains bytes (c.receive now bytes) := by
  refine ⟨?_, fun handshake hs => (stage_receive now c bytes).symm.trans hs⟩
  unfold receive
  split
  · exact Nat.le_add_right _ _
  split
  · exact Nat.le_add_right _ _
  · exact Nat.le_of_eq List.length_append
  · exact Nat.le_of_eq List.length_append

/-- **A move takes bytes away**, unless it is a read. -/
theorem retains_of_move {next : Hub × Connection} (h : Move now hub c occurrence next) :
    c.Retains occurrence.bytes next.2 := by
  have hframe : ∀ {frame : Frame} {rest : Bytes},
      Frame.readMasked c.config.maxMessageSize c.inbox = .frame frame rest →
        rest.length ≤ c.inbox.length :=
    fun hr => Nat.le_of_lt (Frame.length_rest_of_readMasked hr)
  cases h with
  | rest => exact .refl c
  | receive bytes => exact retains_receive now c bytes
  | limit room => exact .of_inbox (Nat.le_refl _) rfl
  | conclude _ houtcome => exact .conclude (Handshake.length_rest_of_outcome? houtcome) now hub _
  | breakOff _ _ => exact .of_stage (Nat.le_refl _) nofun
  | violation _ hr => exact .of_stage (Frame.length_rest_of_violation hr) nofun
  | fault _ hr _ => exact .of_stage (hframe hr) nofun
  | ping _ hr _ =>
    refine Retains.message ?_ hub _
    exact .of_inbox (hframe hr) rfl
  | pong _ hr _ => exact .of_inbox (hframe hr) rfl
  | close _ hr _ =>
    refine Retains.closing ?_ hub _
    exact hframe hr
  | lag _ _ _ => exact .of_stage (Nat.le_refl _) nofun
  | skip _ _ _ _ => exact .of_stage (Nat.le_refl _) nofun
  | tell _ _ _ _ =>
    refine Retains.message ?_ hub _
    exact .of_stage (Nat.le_refl _) nofun
  | leaveEarly _ => exact .of_stage (Nat.le_refl _) nofun
  | leave _ => exact .of_stage (Nat.le_refl _) nofun
  | loseEarly _ => exact .of_stage (Nat.le_refl _) nofun
  | lose _ => exact .of_stage (Nat.le_refl _) nofun
  | timeOut _ => exact .of_stage (Nat.le_refl _) nofun
  | timeOutAnswering _ houtcome _ =>
    exact .of_stage (Handshake.length_rest_of_outcome? houtcome) nofun
  | idle _ =>
    refine Retains.closing ?_ hub _
    exact Nat.le_refl _

/-- How much a connection may hold when it waits. -/
structure WithinLimits (config : Config) (c : Connection) : Prop where
  /-- While it waits for a request head, no more than the largest one -/
  handshaking : ∀ handshake, c.stage = .handshaking handshake → c.inbox.length ≤ config.maxHeadSize
  /-- and afterwards less than the largest frame. -/
  serving : ∀ receiver, c.stage = .serving receiver →
    c.inbox.length < 14 + config.maxMessageSize.toNat

/-- **A connection without work to do is within the limits.** -/
theorem withinLimits_of_advance {config : Config}
    (hlimit : config.maxMessageSize.toNat + 14 < 2 ^ 64) (hconfig : c.config = config)
    (hreading : ∀ handshake, c.stage = .handshaking handshake →
      handshake = { limit := config.maxHeadSize })
    (h : c.advance now hub = none) : c.WithinLimits config where
  handshaking := by
    intro handshake hs
    obtain rfl := hreading handshake hs
    exact Handshake.length_le_of_outcome? (outcome?_of_advance hs rfl h)
  serving := by
    intro receiver hs
    subst hconfig
    exact Frame.length_lt_of_incomplete hlimit (readMasked_of_advance hs h)

theorem WithinLimits.length_le {config : Config} (h : c.WithinLimits config)
    (hopen : c.hasEnded = false) : c.inbox.length ≤ config.retention := by
  unfold Config.retention
  cases hs : c.stage with
  | handshaking handshake =>
    have hhead := h.handshaking handshake hs
    omega
  | serving receiver =>
    have hframe := h.serving receiver hs
    omega
  | ended result => simp [hasEnded, hs] at hopen

end Connection

namespace BusyNetwork

variable {b start : BusyNetwork} {conn : Nat} {c c' : Connection} {steps : List Step} {step : Step}
  {occurrence : Connection.Occurrence} {answering : Option Answering} {config : Config} {store : Store}

theorem retains_of_own (h : b.Own conn c occurrence answering c') :
    c.Retains occurrence.bytes c' := by
  cases h with
  | receive bytes => exact Connection.retains_receive _ c bytes
  | limit room => exact .of_inbox (Nat.le_refl _) rfl
  | move _ hmove => exact Connection.retains_of_move hmove
  | begin _ hq =>
    obtain ⟨receiver, frame, -, hr, -, hwork, -⟩ := Connection.advance_of_request hq
    rw [hwork]
    exact .of_inbox (Nat.le_of_lt (Frame.length_rest_of_readMasked hr)) rfl
  | publish _ => exact .refl c
  | respond _ =>
    refine Connection.Retains.message ?_ _ _
    exact .of_inbox (Nat.le_refl _) rfl

/-! ## Reads -/

/-- A connection waits for input: it is not in the middle of an answer, and there is nothing that it
could do with the bytes it has. -/
def waits (b : BusyNetwork) (conn : Nat) : Bool :=
  (b.answering conn).isNone &&
    b.network.connections[conn]?.all fun c => (c.advance b.network.now b.network.hub).isNone

theorem waits_iff (hc : b.network.connections[conn]? = some c) :
    b.waits conn = true ↔
      b.answering conn = none ∧ c.advance b.network.now b.network.hub = none := by
  simp [waits, hc]

/-- One read: how many bytes it gave, and whether the connection waited for them. -/
structure Read where
  size : Nat
  waited : Bool
  deriving DecidableEq, Repr

/-- The reads of a connection. -/
def reads (conn : Nat) (b : BusyNetwork) (steps : List Step) : List Read :=
  history (fun b step =>
    match (b.occurrence conn step).bytes with
    | [] => []
    | bytes => [{ size := bytes.length, waited := b.waits conn }]) b steps

/-- How many bytes the last read gave. -/
def lastRead (conn : Nat) (b : BusyNetwork) (steps : List Step) : Nat :=
  ((reads conn b steps).map Read.size).getLastD 0

/-- A connection reads when it waits, and at no other time. -/
def ReadsOnDemand (conn : Nat) (b : BusyNetwork) (steps : List Step) : Prop :=
  ∀ read ∈ reads conn b steps, read.waited = true

instance (conn : Nat) (b : BusyNetwork) (steps : List Step) : Decidable (ReadsOnDemand conn b steps) := by
  unfold ReadsOnDemand; infer_instance

theorem ReadsOnDemand.of_concat (h : ReadsOnDemand conn start (steps ++ [step])) :
    ReadsOnDemand conn start steps := by
  intro read hread
  refine h read ?_
  rw [reads, history_concat]
  exact List.mem_append_left _ hread

theorem reads_of_nil (h : ((start.run steps).occurrence conn step).bytes = []) :
    reads conn start (steps ++ [step]) = reads conn start steps := by
  rw [reads, history_concat, h, List.append_nil]
  rfl

theorem reads_of_ne_nil (h : ((start.run steps).occurrence conn step).bytes ≠ []) :
    reads conn start (steps ++ [step]) = reads conn start steps ++
      [{ size := ((start.run steps).occurrence conn step).bytes.length
         waited := (start.run steps).waits conn }] := by
  rw [reads, history_concat]
  cases hbytes : ((start.run steps).occurrence conn step).bytes with
  | nil => exact (h hbytes).elim
  | cons byte bytes => rfl

/-! ## Runs -/

/-- What is true of what a connection holds, in a run. -/
structure Retention (config : Config) (conn : Nat) (start : BusyNetwork) (steps : List Step)
    (c : Connection) : Prop where
  config_eq : c.config = config
  reading : ∀ handshake, c.stage = .handshaking handshake → handshake = { limit := config.maxHeadSize }
  length_le : c.hasEnded = false → ReadsOnDemand conn start steps →
    c.inbox.length ≤ config.retention + lastRead conn start steps

theorem Retention.silent (h : Retention config conn start steps c)
    (hsilent : (start.run steps).occurrence conn step = .silent) :
    Retention config conn start (steps ++ [step]) c := by
  have hreads := @reads_of_nil start conn steps step (by rw [hsilent]; rfl)
  refine ⟨h.config_eq, h.reading, fun hopen hdemand => ?_⟩
  rw [lastRead, hreads]
  exact h.length_le hopen hdemand.of_concat

/-- A turn of the connection.  What a read gives comes on top of what the connection held when it
waited. -/
theorem Retention.own (hlimit : config.maxMessageSize.toNat + 14 < 2 ^ 64)
    (h : Retention config conn start steps c)
    (hc : (start.run steps).network.connections[conn]? = some c)
    (hseen : (start.run steps).occurrence conn step = occurrence)
    (ho : (start.run steps).Own conn c occurrence answering c') (hconfig : c'.config = c.config) :
    Retention config conn start (steps ++ [step]) c' := by
  have hretains := retains_of_own ho
  refine ⟨hconfig.trans h.config_eq, fun handshake hs => h.reading handshake (hretains.stage_eq _ hs),
    fun hopen' hdemand => ?_⟩
  have hopen : c.hasEnded = false := by
    by_contra hended
    rw [Bool.not_eq_false] at hended
    rw [ho.hasEnded hended] at hopen'
    cases hopen'
  have hlength := hretains.length_le
  by_cases hbytes : occurrence.bytes = []
  · have hreads := @reads_of_nil start conn steps step (hseen ▸ hbytes)
    have hbefore := h.length_le hopen hdemand.of_concat
    rw [hbytes, List.length_nil] at hlength
    rw [lastRead, hreads]
    exact Nat.le_trans hlength hbefore
  · have hreads := @reads_of_ne_nil start conn steps step (hseen ▸ hbytes)
    rw [hseen] at hreads
    have hwaited : (start.run steps).waits conn = true :=
      hdemand _ (hreads ▸ List.mem_append_right _ List.mem_cons_self)
    have hidle := ((waits_iff hc).mp hwaited).2
    have hwithin := Connection.withinLimits_of_advance hlimit h.config_eq h.reading hidle
    have hbefore := hwithin.length_le hopen
    have hlast : lastRead conn start (steps ++ [step]) = occurrence.bytes.length := by
      rw [lastRead, hreads, List.map_append, List.map_singleton, List.getLastD_concat]
    omega

theorem retention_run (hlimit : config.maxMessageSize.toNat + 14 < 2 ^ 64) (conn : Nat)
    (steps : List Step) (c : Connection)
    (hc : ((ofNetwork (Network.start config store)).run steps).network.connections[conn]? = some c) :
    Retention config conn (ofNetwork (Network.start config store)) steps c := by
  refine @forall_connection config store (fun _ => True)
    (fun steps _ c => Retention config conn (ofNetwork (Network.start config store)) steps c)
    conn trivial (fun _ _ _ _ => trivial) ?_ ?_ ?_ steps c hc
  · intro steps step session _ b
    refine ⟨rfl, ?_, fun _ _ => Nat.zero_le _⟩
    intro handshake hs
    exact (Stage.handshaking.inj hs).symm
  · exact fun steps step answering c h hsilent => h.silent hsilent
  · intro steps step occurrence answering c c' b h hc hseen hown hcontinues
    exact h.own hlimit hc hseen hown hcontinues.config_eq

/-- **What a server holds of its clients' bytes is bounded.**  A connection that waits for input has at
most the bytes of the largest request head, or fewer than those of the largest frame.  Where it reads when
it waits, and at no other time, it never has more than the larger of these and its last read. -/
theorem length_inbox_run (hlimit : config.maxMessageSize.toNat + 14 < 2 ^ 64) (conn : Nat)
    (steps : List Step) (c : Connection)
    (hc : ((ofNetwork (Network.start config store)).run steps).network.connections[conn]? = some c) :
    let start := ofNetwork (Network.start config store)
    ((start.run steps).waits conn = true →
      (∀ handshake, c.stage = .handshaking handshake → c.inbox.length ≤ config.maxHeadSize) ∧
      (∀ receiver, c.stage = .serving receiver →
        c.inbox.length < 14 + config.maxMessageSize.toNat)) ∧
    (c.hasEnded = false → ReadsOnDemand conn start steps →
      c.inbox.length ≤ max config.maxHeadSize (13 + config.maxMessageSize.toNat) +
        lastRead conn start steps) := by
  intro start
  have h := retention_run hlimit conn steps c hc
  refine ⟨fun hwaits => ?_, h.length_le⟩
  have hidle := ((waits_iff hc).mp hwaits).2
  have hwithin := Connection.withinLimits_of_advance hlimit h.config_eq h.reading hidle
  exact ⟨hwithin.handshaking, hwithin.serving⟩

/-- The upgrade request comes in two reads, and then the first bytes of a frame of 200 bytes. -/
theorem length_inbox_of_three_reads :
    let config : Config := { maxMessageSize := 1000 }
    let start := ofNetwork (Network.start config)
    let steps := [.act (.connect 1), .act (.receive 0 (upgradeRequest.take 20)),
      .act (.receive 0 (upgradeRequest.drop 20)), .act (.advance 0),
      .act (.receive 0 [0x81, 0xFE, 0, 200, 1, 2, 3, 4, 96])]
    config.maxMessageSize.toNat + 14 < 2 ^ 64 ∧ (start.run steps).waits 0 = true ∧
      ReadsOnDemand 0 start steps ∧
      ∃ c, (start.run steps).network.connections[0]? = some c ∧ c.isServing = true ∧
        c.inbox.length < 14 + 1000 ∧ c.inbox.length ≤ 8192 + 9 := by
  intro config start steps
  have hlimit : config.maxMessageSize.toNat + 14 < 2 ^ 64 := by decide
  have hfacts : ((start.run steps).waits 0, decide (ReadsOnDemand 0 start steps),
      (start.run steps).network.connections[0]?.map Connection.isServing,
      lastRead 0 start steps) = (true, true, some true, 9) := by
    decide +kernel
  obtain ⟨hwaits, hrest⟩ := Prod.mk.inj hfacts
  obtain ⟨hdemand, hrest⟩ := Prod.mk.inj hrest
  obtain ⟨hserving, hlast⟩ := Prod.mk.inj hrest
  have hreads : ReadsOnDemand 0 start steps := of_decide_eq_true hdemand
  obtain ⟨c, hc, hserving⟩ := Option.map_eq_some_iff.mp hserving
  have hrun := @length_inbox_run config .empty hlimit 0 steps c
  -- the name keeps the run folded while types are compared
  rw [show ofNetwork (Network.start config) = start from rfl] at hrun
  obtain ⟨hbounds, hlength⟩ := hrun hc
  obtain ⟨receiver, hs⟩ := Connection.exists_of_isServing hserving
  have hle := hlength (by simp only [Connection.hasEnded, hs]) hreads
  rw [hlast] at hle
  exact ⟨hlimit, hwaits, hreads, c, hc, hserving, (hbounds hwaits).2 receiver hs, hle⟩

end BusyNetwork

end ServiceDirectory
