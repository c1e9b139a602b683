import ServiceDirectory.Proofs.Connection.Delivery
import ServiceDirectory.Proofs.Network.Sessions
import ServiceDirectory.Proofs.Network.Subscribers
import ServiceDirectory.Proofs.Upgrade.Arrival

/-!
# Replies and notices in a run

Any number of connections share a directory with notices on; their clients send what they like, and
the steps of the connections interleave in any way.  A connection that misses no notice sends its client,
behind the head that switches protocols, the events published by others since it began to serve, in
order and once each, and among them the replies to what the client sent, in order
(`BusyNetwork.delivered_run`).

A connection stands at each moment where it waits for its upgrade request, has ended without having been
open, or has done its delivery so far (`BusyNetwork.Stands`).  One step of whichever connection keeps it
so.
-/

namespace ServiceDirectory

open WebSocket (Frame)
open Upgrade (Handshake Outcome SwitchingHead)

namespace BusyNetwork

variable {config : Config} {start b b' : BusyNetwork} {conn : Nat} {c : Connection} {d : Delivery}
  {who : Option Nat} {occurrence : Connection.Occurrence} {notice : Option (Nat × Notice)}
  {steps before after : List Step} {opening : Step}

/-- The response that a connection is in the middle of. -/
def due (b : BusyNetwork) (conn : Nat) : List Frame :=
  (b.answering conn).toList.map fun answering => .ofText answering.response.render

theorem due_of_free (h : b.answering conn = none) : b.due conn = [] := by
  simp only [due, h, Option.toList_none, List.map_nil]

theorem due_of_answering {session : SessionId} {change : Option Change} {response : Response}
    (h : b.answering conn = some ⟨session, change, response⟩) :
    b.due conn = [.ofText response.render] := by
  simp only [due, h, Option.toList_some, List.map_cons, List.map_nil]

theorem answering_withAnswering (b : BusyNetwork) (conn : Nat) (answering : Option Answering) :
    (b.withAnswering conn answering).answering conn = answering :=
  Function.update_self ..

theorem due_begin (b : BusyNetwork) (conn : Nat) (c : Connection) (text : List Char) (rest : Bytes) :
    (b.begin conn c text rest).due conn = [.ofText (b.directory.applyText text).response.render] :=
  due_of_answering (answering_withAnswering _ conn _)

/-! ## One step of a delivery -/

theorem reaches_respond {response : Response} (h : d.Reaches [.ofText response.render] c) (hub : Hub) :
    d.Reaches [] (c.respond hub response).2 := by
  cases h with
  | serving keeps sent =>
    have hreply := keeps.reply (Frame.isEvent_of_response response)
    exact Delivery.reaches_message (c := { c with session := c.session.addMessage })
      (hreply.of_eq rfl rfl rfl rfl) sent _
  | ended _ due_eq _ _ => cases due_eq

theorem response_applyText (directory : Directory) (session : SessionId) (text : List Char) :
    (directory.handleText session (String.ofList text)).1 = (directory.applyText text).response := by
  simp only [Directory.handleText, Directory.handle, Directory.applyText]
  generalize Directory.apply directory.policy directory.store _ = applied
  cases applied.change <;> rfl

/-- A step of another connection. -/
theorem reaches_other (hc : b.network.connections[conn]? = some c) (h : d.Reaches (b.due conn) c)
    (ht : b.Turn who occurrence notice b') (hwho : who ≠ some conn) :
    ∃ c', b'.network.connections[conn]? = some c' ∧
      (d.after .silent b.directory notice).Reaches (b'.due conn) c' ∧
      (c.hasEnded = true → c'.hasEnded = true) := by
  obtain ⟨hget, hanswering⟩ := other_turn hc ht hwho
  refine ⟨c, hget, ?_, fun hended => hended⟩
  rw [due, hanswering]
  exact h.publish b.directory notice

/-- A step of the connection. -/
theorem reaches_own (hc : b.network.connections[conn]? = some c) (h : d.Reaches (b.due conn) c)
    (ha : d.Attributed) (hlogs : d.Fed b.directory c) (ht : b.Turn (some conn) occurrence notice b')
    (hlag : occurrence.missed? = none) :
    ∃ c', b'.network.connections[conn]? = some c' ∧
      (d.after occurrence b.directory notice).Reaches (b'.due conn) c' ∧
      (c.hasEnded = true → c'.hasEnded = true) := by
  have hset : ∀ c', (b.network.connections.set conn c')[conn]? = some c' :=
    fun c' => List.getElem?_set_self (List.getElem?_eq_some_iff.mp hc).1
  have hthis : ∀ {c' : Connection}, b.network.connections[conn]? = some c' → c = c' :=
    fun hc' => Option.some.inj (hc.symm.trans hc')
  cases ht with
  | receive bytes hc' =>
    obtain rfl := hthis hc'
    refine ⟨_, hset _, h.receive _ bytes b.directory, ?_⟩
    intro hended
    rw [Connection.receive_of_ended hended]
    exact hended
  | limit room hc' =>
    obtain rfl := hthis hc'
    rw [Delivery.after_silent]
    exact ⟨_, hset _, h.limit room, fun hended => hended⟩
  | move hc' hfree hmove =>
    obtain rfl := hthis hc'
    rw [due_of_free hfree] at h
    refine ⟨_, hset _, ?_, ?_⟩
    · show Delivery.Reaches _ (b.due conn) _
      rw [due_of_free hfree]
      exact h.move ha hlogs hmove hlag
    · intro hended
      obtain ⟨-, room, rfl⟩ := Connection.move_of_ended hended hmove
      exact hended
  | begin hc' hfree hq =>
    obtain rfl := hthis hc'
    obtain ⟨receiver, frame, hstage, hread, htext, hwork, -⟩ := Connection.advance_of_request hq
    rw [due_of_free hfree] at h
    have hbegin := h.begin hstage hread htext b.directory
    rw [response_applyText] at hbegin
    refine ⟨_, hset _, ?_, ?_⟩
    · rw [hwork, due_begin]
      exact hbegin
    · intro hended
      simp [Connection.hasEnded, hstage] at hended
  | publish hanswering =>
    rw [due_of_answering hanswering] at h
    refine ⟨c, hc, ?_, fun hended => hended⟩
    rw [due_of_answering (answering_withAnswering _ conn _)]
    exact h.publish b.directory _
  | respond hc' hanswering =>
    obtain rfl := hthis hc'
    rw [due_of_answering hanswering] at h
    refine ⟨_, hset _, ?_, ?_⟩
    · rw [due_of_free (answering_withAnswering _ conn _), Delivery.after_silent]
      exact reaches_respond h b.network.hub
    · intro hended
      cases h with
      | serving keeps _ => simp [Connection.hasEnded, keeps.stage_eq] at hended
      | ended _ due_eq _ _ => cases due_eq

/-- A step of whichever connection. -/
theorem reaches_turn (hc : b.network.connections[conn]? = some c) (h : d.Reaches (b.due conn) c)
    (ha : d.Attributed) (hlogs : d.Fed b.directory c) (ht : b.Turn who occurrence notice b')
    (hlag : (if who = some conn then occurrence else .silent).missed? = none) :
    ∃ c', b'.network.connections[conn]? = some c' ∧
      (d.after (if who = some conn then occurrence else .silent) b.directory notice).Reaches
        (b'.due conn) c' ∧
      (c.hasEnded = true → c'.hasEnded = true) := by
  by_cases hwho : who = some conn
  · subst hwho
    rw [if_pos rfl] at hlag ⊢
    exact reaches_own hc h ha hlogs ht hlag
  · rw [if_neg hwho]
    exact reaches_other hc h ht hwho

/-- The channel keeps what is published, as long as the connection goes on. -/
theorem fed_turn (hlogs : d.Fed b.directory c) (ht : b.Turn who occurrence notice b')
    (hcounted : b'.Counted) {c' : Connection} (hc : b'.network.connections[conn]? = some c')
    {seen : Connection.Occurrence} {due : List Frame}
    (hreaches : (d.after seen b.directory notice).Reaches due c')
    (hends : c.hasEnded = true → c'.hasEnded = true) :
    (d.after seen b.directory notice).Fed b'.directory c' := by
  intro hgoes
  have hwent : c.hasEnded = false := by
    by_contra hended
    rw [hends (by simpa using hended)] at hgoes
    cases hgoes
  have hsubscribed : c'.isSubscribed = true := by
    cases hreaches with
    | serving keeps _ => simp only [Connection.isSubscribed, keeps.stage_eq]
    | ended ended _ _ _ =>
      rw [hgoes] at ended
      cases ended
  obtain ⟨channel, hfeed, hkept⟩ := hlogs hwent
  obtain ⟨channel', hfeed', hkept'⟩ := logs_turn hkept hfeed ht hcounted hc hsubscribed
  refine ⟨channel', hfeed', ?_⟩
  show channel'.Logs d.start ((d.log ++ notice.toList).map Prod.snd)
  rw [List.map_append]
  exact hkept'

/-! ## A run and what is observed of a connection -/

/-- What is observed of a connection in a run from the step by which it began to serve its client. -/
structure Traces (config : Config) (start : BusyNetwork) (before : List Step) (opening : Step)
    (after : List Step) (d : Delivery) : Prop where
  waits : ∃ c, (start.run before).network.connections[d.conn]? = some c ∧ c.IsWaiting
  serves : ∃ c, (start.run (before ++ [opening])).network.connections[d.conn]? = some c ∧
    c.stage = .serving (some ⟨d.start⟩)
  head : SwitchingHead d.head
  limit_eq : d.limit = config.maxMessageSize
  /-- The bytes of the client are an upgrade request that is accepted, and the stream. -/
  arrived_eq : ∃ value, Handshake.outcome? config.maxHeadSize
    (arrived d.conn start (before ++ opening :: after)) = some (.accepted value, d.stream)
  log_eq : d.log = published (start.run (before ++ [opening])) after
  receptions_eq : d.receptions = receptions d.conn (start.run (before ++ [opening])) after

theorem run_opening (start : BusyNetwork) (before : List Step) (opening : Step) (after : List Step) :
    (start.run (before ++ [opening])).run after = start.run (before ++ opening :: after) := by
  rw [← run_append, List.append_assoc]
  rfl

/-- One more step. -/
theorem Traces.concat (h : Traces config start before opening after d) (step : Step) :
    Traces config start before opening (after ++ [step])
      (d.after ((start.run (before ++ opening :: after)).occurrence d.conn step)
        (start.run (before ++ opening :: after)).directory
        ((start.run (before ++ opening :: after)).notice? step)) where
  waits := h.waits
  serves := h.serves
  head := h.head
  limit_eq := h.limit_eq
  arrived_eq := by
    obtain ⟨value, houtcome⟩ := h.arrived_eq
    refine ⟨value, ?_⟩
    have hsteps : before ++ opening :: (after ++ [step]) = (before ++ opening :: after) ++ [step] := by
      simp
    rw [hsteps]
    show Handshake.outcome? _ (arrived d.conn start _) = _
    rw [arrived, history_concat]
    exact Handshake.outcome?_append _ houtcome
  log_eq := by
    show d.log ++ _ = _
    rw [published, history_concat, run_opening, h.log_eq]
    rfl
  receptions_eq := by
    show d.receptions ++ _ = _
    rw [receptions, history_concat, run_opening, h.receptions_eq]
    rfl

/-- The number of its session tells the notices of a connection from those of others. -/
def TellsApart (conn : Nat) (start : BusyNetwork) (steps : List Step) : Prop :=
  ∀ c, (start.run steps).network.connections[conn]? = some c → ∀ made ∈ published start steps,
    ∃ change session, made.2 = Change.notice change session ∧ (session = c.session.id ↔ made.1 = conn)

/-- What can be told apart at the end could be told apart before. -/
theorem TellsApart.of_concat {step : Step} (h : TellsApart conn start (steps ++ [step])) :
    TellsApart conn start steps := by
  intro c hc made hmade
  obtain ⟨c', hc', hcontinues⟩ := connection_run hc [step]
  rw [← hcontinues.session.id_eq]
  rw [← run_append] at hc'
  refine h c' hc' made ?_
  rw [published, history_concat]
  exact List.mem_append_left _ hmade

/-- Sessions that have distinct numbers tell connections apart. -/
theorem tellsApart_of_nodup {network : Network}
    (h : (((ofNetwork network).run steps).network.connections.map (·.session.id)).Nodup) (conn : Nat) :
    TellsApart conn (ofNetwork network) steps := by
  intro c hc made hmade
  obtain ⟨change, made_by, hmade_by, hnotice⟩ :=
    (attributed_ofNetwork network).published_run steps made hmade
  exact ⟨change, made_by.session.id, hnotice, id_eq_iff h hc hmade_by⟩

/-- How a connection stands after steps. -/
inductive Stands (config : Config) (conn : Nat) (start : BusyNetwork) (steps : List Step) : Prop where
  | absent (get_eq : (start.run steps).network.connections[conn]? = none)
      (free : (start.run steps).answering conn = none) (arrived_eq : arrived conn start steps = [])
  | waiting {c : Connection} (get_eq : (start.run steps).network.connections[conn]? = some c)
      (free : (start.run steps).answering conn = none)
      (stage_eq : c.stage = .handshaking { limit := config.maxHeadSize })
      (config_eq : c.config = config) (inbox_eq : c.inbox = arrived conn start steps)
      (waiting : c.IsWaiting)
  | unserved {c : Connection} (get_eq : (start.run steps).network.connections[conn]? = some c)
      (free : (start.run steps).answering conn = none) (ended : c.hasEnded = true)
      (unserved : c.IsUnserved)
  | opened {c : Connection} {before after : List Step} {opening : Step} {d : Delivery}
      (get_eq : (start.run steps).network.connections[conn]? = some c)
      (steps_eq : steps = before ++ opening :: after)
      (traces : Traces config start before opening after d) (conn_eq : d.conn = conn)
      (session_eq : d.session = c.session.id) (reaches : d.Reaches ((start.run steps).due conn) c)
      (logs : d.Fed (start.run steps).directory c)

/-! ## One step of a run -/

/-- A step where the connection is not there yet. -/
theorem Stands.step_absent {step : Step} (hc : (start.run steps).network.connections[conn]? = none)
    (hfree : (start.run steps).answering conn = none) (ha : arrived conn start steps = [])
    (hconfig : (start.run steps).network.config = config) :
    Stands config conn start (steps ++ [step]) := by
  obtain ⟨who, occurrence, notice, htakes⟩ := takes_step (start.run steps) step
  obtain ⟨hwho, hnext⟩ := absent_turn hc hfree htakes.turn
  have harrived : arrived conn start (steps ++ [step]) = [] := by
    rw [arrived_concat, ha, htakes.occurrence_eq, if_neg hwho]
    rfl
  have hanswering := answering_turn htakes.turn hwho
  rcases hnext with hnone | ⟨session, hsome⟩
  · exact .absent (run_concat start steps step ▸ hnone)
      (run_concat start steps step ▸ hanswering.trans hfree) harrived
  · refine .waiting (run_concat start steps step ▸ hsome)
      (run_concat start steps step ▸ hanswering.trans hfree) ?_ hconfig harrived.symm
      ⟨rfl, rfl, rfl, rfl⟩
    rw [← hconfig]
    rfl

/-- A connection begins to serve its client with a step. -/
theorem Stands.of_opening {step : Step} {c' : Connection} {channel : Channel Notice} {value : String}
    (hc : (start.run steps).network.connections[conn]? = some c) (hw : c.IsWaiting)
    (hget : (start.run (steps ++ [step])).network.connections[conn]? = some c')
    (hfree : (start.run (steps ++ [step])).answering conn = none)
    (hfeed : (start.run (steps ++ [step])).directory.feed = some channel.subscribe.2)
    (hs : c'.stage = .serving (some ⟨channel.sent⟩)) (hconfig : c'.config = config)
    (hwhole : c'.outlet.cut = false) (houtput : c'.outlet.output = (Outcome.accepted value).response)
    (houtcome : Handshake.outcome? config.maxHeadSize (arrived conn start (steps ++ [step])) =
      some (.accepted value, c'.inbox)) : Stands config conn start (steps ++ [step]) := by
  have hhead : SwitchingHead c'.outlet.output := by
    rw [houtput]
    exact Upgrade.switchingHead_of_outcome? houtcome
  have htraces : Traces config start steps step [] (.opening conn channel.sent c') :=
    ⟨⟨c, hc, hw⟩, ⟨c', hget, hs⟩, hhead, congrArg Config.maxMessageSize hconfig, ⟨value, houtcome⟩,
      rfl, rfl⟩
  refine .opened hget rfl htraces rfl rfl ?_ fun _ => ⟨_, hfeed, Channel.logs_subscribe channel⟩
  rw [due_of_free hfree]
  exact Delivery.reaches_opening conn hs hwhole

/-- A step where the connection waits for its upgrade request. -/
theorem Stands.step_waiting {step : Step} (hc : (start.run steps).network.connections[conn]? = some c)
    (hfree : (start.run steps).answering conn = none)
    (hs : c.stage = .handshaking { limit := config.maxHeadSize }) (hconfig : c.config = config)
    (hinbox : c.inbox = arrived conn start steps) (hw : c.IsWaiting)
    (hcounted : (start.run steps).Counted) : Stands config conn start (steps ++ [step]) := by
  obtain ⟨who, occurrence, notice, htakes⟩ := takes_step (start.run steps) step
  have harrived := arrived_concat conn start steps step
  rw [htakes.occurrence_eq, ← hinbox] at harrived
  by_cases hwho : who = some conn
  · subst hwho
    rw [if_pos rfl] at harrived
    have hq : c.request? = none := by simp only [Connection.request?, hs]
    obtain ⟨next, hmove, hhub, hget, hfree'⟩ := move_of_turn hc hfree hq htakes.turn
    rw [← run_concat] at hhub hget hfree'
    cases Connection.awaits_of_move hs hw hmove with
    | waits stage_eq config_eq inbox_eq waiting =>
      exact .waiting hget hfree' (stage_eq.trans hs) (config_eq.trans hconfig)
        (inbox_eq.trans harrived.symm) waiting
    | ends ended unserved => exact .unserved hget hfree' ended unserved
    | begins silent outcome_eq directory_eq stage_eq config_eq inbox_eq output_eq whole =>
      obtain ⟨channel, hfeed, -⟩ := hcounted
      have hfeed' : (start.run steps).network.hub.directory.feed = some channel := hfeed
      simp only [Directory.subscribe, hfeed'] at stage_eq directory_eq
      have hnext : (start.run (steps ++ [step])).directory.feed = some channel.subscribe.2 := by
        rw [directory, hhub, directory_eq]
      have hall : arrived conn start (steps ++ [step]) = c.inbox := by
        rw [harrived, silent]
        exact List.append_nil _
      refine .of_opening hc hw hget hfree' hnext stage_eq (config_eq.trans hconfig) whole output_eq ?_
      rw [hall, inbox_eq]
      exact outcome_eq
  · rw [if_neg hwho] at harrived
    obtain ⟨hget, hanswering⟩ := other_turn hc htakes.turn hwho
    refine .waiting (run_concat start steps step ▸ hget)
      (run_concat start steps step ▸ hanswering.trans hfree) hs hconfig ?_ hw
    rw [harrived]
    exact (List.append_nil _).symm

/-- A step where the connection has ended without having been open. -/
theorem Stands.step_unserved {step : Step}
    (hc : (start.run steps).network.connections[conn]? = some c)
    (hfree : (start.run steps).answering conn = none) (he : c.hasEnded = true)
    (hu : c.IsUnserved) : Stands config conn start (steps ++ [step]) := by
  obtain ⟨who, occurrence, notice, htakes⟩ := takes_step (start.run steps) step
  by_cases hwho : who = some conn
  · subst hwho
    have hq := Connection.request?_of_ended he
    obtain ⟨next, hmove, -, hget, hfree'⟩ := move_of_turn hc hfree hq htakes.turn
    rw [← run_concat] at hget hfree'
    obtain ⟨-, room, rfl⟩ := Connection.move_of_ended he hmove
    exact .unserved hget hfree' he ⟨hu.unopened, hu.answer⟩
  · obtain ⟨hget, hanswering⟩ := other_turn hc htakes.turn hwho
    exact .unserved (run_concat start steps step ▸ hget)
      (run_concat start steps step ▸ hanswering.trans hfree) he hu

/-- The notices of a delivery are among those of the run. -/
theorem Traces.attributed (h : Traces config start before opening after d) (hconn : d.conn = conn)
    (hc : (start.run (before ++ opening :: after)).network.connections[conn]? = some c)
    (hid : d.session = c.session.id) (ht : TellsApart conn start (before ++ opening :: after)) :
    d.Attributed := by
  intro made hmade
  rw [hid, hconn]
  refine ht c hc made ?_
  have hsteps : before ++ opening :: after = (before ++ [opening]) ++ after := by simp
  rw [hsteps, published, history_append]
  rw [h.log_eq] at hmade
  exact List.mem_append_right _ hmade

/-- A step where the connection was opened. -/
theorem Stands.step_opened {step : Step}
    (hc : (start.run (before ++ opening :: after)).network.connections[conn]? = some c)
    (htraces : Traces config start before opening after d) (hconn : d.conn = conn)
    (hid : d.session = c.session.id)
    (h : d.Reaches ((start.run (before ++ opening :: after)).due conn) c)
    (hlogs : d.Fed (start.run (before ++ opening :: after)).directory c)
    (hcounted : (start.run (before ++ opening :: after)).Counted)
    (ht : TellsApart conn start (before ++ opening :: after))
    (hlag : ((start.run (before ++ opening :: after)).occurrence conn step).missed? = none) :
    Stands config conn start (before ++ opening :: after ++ [step]) := by
  obtain ⟨who, occurrence, notice, htakes⟩ := takes_step (start.run (before ++ opening :: after)) step
  have hattributed := htraces.attributed hconn hc hid ht
  have hconcat := htraces.concat step
  rw [htakes.notice_eq, htakes.occurrence_eq, hconn] at hconcat
  rw [htakes.occurrence_eq] at hlag
  obtain ⟨c', hc', hreaches, hends⟩ := reaches_turn hc h hattributed hlogs htakes.turn hlag
  obtain ⟨c'', hc'', hcontinues, -⟩ := connection_turn hc htakes.turn
  obtain rfl : c' = c'' := Option.some.inj (hc'.symm.trans hc'')
  have hfed := fed_turn hlogs htakes.turn (hcounted.turn htakes.turn) hc' hreaches hends
  rw [← run_concat] at hc' hreaches hfed
  exact .opened hc' (by simp) hconcat hconn (hid.trans hcontinues.session.id_eq.symm) hreaches hfed

/-- **One step of a run.** -/
theorem Stands.step {step : Step} (h : Stands config conn start steps)
    (hconfig : (start.run steps).network.config = config) (hcounted : (start.run steps).Counted)
    (ht : TellsApart conn start steps)
    (hlag : ((start.run steps).occurrence conn step).missed? = none) :
    Stands config conn start (steps ++ [step]) := by
  cases h with
  | absent get_eq free arrived_eq => exact step_absent get_eq free arrived_eq hconfig
  | waiting get_eq free stage_eq config_eq inbox_eq waiting =>
    exact step_waiting get_eq free stage_eq config_eq inbox_eq waiting hcounted
  | unserved get_eq free ended unserved => exact step_unserved get_eq free ended unserved
  | opened get_eq steps_eq traces conn_eq session_eq reaches logs =>
    subst steps_eq
    exact step_opened get_eq traces conn_eq session_eq reaches logs hcounted ht hlag

/-- **Every run in which the connection misses no notice.** -/
theorem stands_run (hn : config.notices = true) (store : Store) (conn : Nat) (steps : List Step)
    (ht : TellsApart conn (ofNetwork (Network.start config store)) steps)
    (hlag : missed conn (ofNetwork (Network.start config store)) steps = []) :
    Stands config conn (ofNetwork (Network.start config store)) steps := by
  -- a history grows at its end, and so does the run; both conditions hold of every front of it
  induction steps using List.reverseRecOn with
  | nil => exact .absent rfl rfl rfl
  | append_singleton steps step ih =>
    rw [missed, history_concat, List.append_eq_nil_iff] at hlag
    exact (ih ht.of_concat hlag.1).step (config_run _ steps) ((counted_start hn store).run steps)
      ht.of_concat (Option.toList_eq_nil_iff.mp hlag.2)

/-- **Delivery of notices and replies.**  Connections whose sessions have distinct numbers share a
directory with notices on, and their steps interleave in any way.  Take a connection that has missed no
notice.  If it was not opened, nothing went through to its client but a front of an answer to the upgrade
request.  If it was, there is the step by which it began to serve its client; the bytes of the client are
an upgrade request that is accepted, and a stream behind it; and what went through to the client is the
head that switches protocols and behind it the frames of the delivery so far. -/
theorem delivered_run (hn : config.notices = true) (store : Store) (steps : List Step)
    (hc : ((ofNetwork (Network.start config store)).run steps).network.connections[conn]? = some c)
    (hids : (((ofNetwork (Network.start config store)).run steps).network.connections.map
      (·.session.id)).Nodup)
    (hlag : missed conn (ofNetwork (Network.start config store)) steps = []) :
    c.IsUnserved ∨
      ∃ before opening after d, steps = before ++ opening :: after ∧
        Traces config (ofNetwork (Network.start config store)) before opening after d ∧
        d.conn = conn ∧ d.session = c.session.id ∧
        ∃ frames last rest idle,
          d.Accounts ((ofNetwork (Network.start config store)).run steps).network.hub
            (((ofNetwork (Network.start config store)).run steps).due conn) c frames last rest idle := by
  have hsame : ∀ {c' : Connection},
      ((ofNetwork (Network.start config store)).run steps).network.connections[conn]? = some c' →
      c' = c := fun hc' => Option.some.inj (hc'.symm.trans hc)
  cases stands_run hn store conn steps (tellsApart_of_nodup hids conn) hlag with
  | absent get_eq _ _ => exact nomatch get_eq.symm.trans hc
  | waiting get_eq _ _ _ _ waiting =>
    obtain rfl := hsame get_eq
    exact .inl waiting.isUnserved
  | unserved get_eq _ _ unserved =>
    obtain rfl := hsame get_eq
    exact .inl unserved
  | opened get_eq steps_eq traces conn_eq session_eq reaches logs =>
    obtain rfl := hsame get_eq
    exact .inr ⟨_, _, _, _, steps_eq, traces, conn_eq, session_eq, reaches.accounts logs⟩

/-- Two clients are upgraded; one of them registers an entry, and before it has its response, the other
is told of the change. -/
theorem delivered_of_registration :
    let config : Config := { notices := true }
    let request := Utf8.encode ("GET / HTTP/1.1\r\nUpgrade: websocket\r\nConnection: Upgrade\r\n" ++
      "Sec-WebSocket-Key: dGhlIHNhbXBsZSBub25jZQ==\r\nSec-WebSocket-Version: 13\r\n\r\n").toList
    let registration := Utf8.encode ("\x7b\"request\":\"register\",\"entry\":" ++
      "\x7b\"id\":\"00000000-0000-0000-0000-000000000001\",\"name\":\"a\",\"topic\":\"clock\"," ++
      "\"type\":\"service\",\"address\":\"tcp://c:1\"\x7d\x7d").toList
    let steps := [.act (.connect 1), .act (.connect 2), .act (.receive 0 request), .act (.advance 0),
      .act (.receive 1 request), .act (.advance 1),
      .act (.receive 1 ([0x81, 0xFE, 0, 142, 0, 0, 0, 0] ++ registration)), .act (.advance 1),
      .publish 1, .act (.takeNotice 0)]
    config.notices = true ∧
      (((ofNetwork (Network.start config)).run steps).network.connections.map
        (·.session.id)).Nodup ∧
      missed 0 (ofNetwork (Network.start config)) steps = [] ∧
      (published (ofNetwork (Network.start config)) steps).map Prod.fst = [1] ∧
      ∃ c, ((ofNetwork (Network.start config)).run steps).network.connections[0]? = some c ∧
        c.session.openedAt.isSome ∧
        ∃ before opening after d, steps = before ++ opening :: after ∧
          Traces config (ofNetwork (Network.start config)) before opening after d ∧
          d.conn = 0 ∧ d.session = c.session.id ∧
          ∃ frames last rest idle,
            d.Accounts ((ofNetwork (Network.start config)).run steps).network.hub
              (((ofNetwork (Network.start config)).run steps).due 0) c frames last rest idle := by
  intro config request registration steps
  have hfacts : (((ofNetwork (Network.start config)).run steps).network.connections.map fun c =>
        (c.session.id, c.session.openedAt.isSome),
      missed 0 (ofNetwork (Network.start config)) steps,
      (published (ofNetwork (Network.start config)) steps).map Prod.fst) =
      ([(1, true), (2, true)], [], [1]) := by
    decide +kernel
  obtain ⟨hconnections, hrest⟩ := Prod.mk.inj hfacts
  obtain ⟨hlag, hpublished⟩ := Prod.mk.inj hrest
  have hids : (((ofNetwork (Network.start config)).run steps).network.connections.map
      (·.session.id)).Nodup := by
    have hfirsts := congrArg (List.map Prod.fst) hconnections
    rw [List.map_map] at hfirsts
    exact (congrArg List.Nodup hfirsts).mpr (by decide)
  have hfirst := congrArg (·[0]?) hconnections
  rw [List.getElem?_map] at hfirst
  obtain ⟨c, hc, hopened⟩ := Option.map_eq_some_iff.mp hfirst
  have hopen : c.session.openedAt.isSome := congrArg Prod.snd hopened
  refine ⟨rfl, hids, hlag, hpublished, c, hc, hopen, ?_⟩
  rcases @delivered_run config 0 c rfl .empty steps hc hids hlag with hunserved | hdelivered
  · rw [hunserved.unopened] at hopen
    cases hopen
  · exact hdelivered

end BusyNetwork

end ServiceDirectory
