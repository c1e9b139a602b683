import ServiceDirectory.Proofs.Connection.Requests
import ServiceDirectory.Proofs.Network.Sessions
import ServiceDirectory.Proofs.Network.Subscribers
import ServiceDirectory.Proofs.Upgrade.Arrival

/-!
# One request at a time

Clients may be gone at any moment, so any write may fail, and the steps of the connections interleave in
any way.  A request is applied before its response is written.  Still no more than one request of a
connection is ever without its response: the requests that a connection hands to the directory
(`BusyNetwork.handed`) are the first of those in the bytes of its client, each once and in order; all of
them have been answered, but for one that is being answered, or whose response was cut short, and with
that the connection has ended (`BusyNetwork.handed_run`).
-/

namespace ServiceDirectory

open WebSocket (Frame)
open Upgrade (Handshake Outcome SwitchingHead)

/-! ## What a step hands over -/

theorem Connection.request?_workOccurrence (c : Connection) :
    c.workOccurrence.request? = c.request?.map Prod.fst := by
  unfold workOccurrence Connection.request?
  cases c.stage with
  | handshaking handshake => rfl
  | ended result => rfl
  | serving receiver =>
    simp only
    cases Frame.readMasked c.config.maxMessageSize c.inbox with
    | incomplete => rfl
    | outOfBounds => rfl
    | violation cause rest => rfl
    | frame frame rest =>
      show frame.request? = _
      cases hq : frame.request? <;> simp [hq]

theorem Connection.request?_noticeOccurrence (hub : Hub) (c : Connection) :
    (c.noticeOccurrence hub).request? = none := by
  unfold noticeOccurrence
  split
  · split <;> rfl
  · rfl

namespace BusyNetwork

/-- The text that a step takes from the inbox of a connection and hands to the directory. -/
def asked? (b : BusyNetwork) (conn : Nat) : Step → Option (List Char)
  | .act (.advance other) =>
    if other = conn ∧ (b.answering conn).isNone then
      (b.network.connections[conn]?.bind Connection.request?).map Prod.fst
    else none
  | _ => none

/-- The requests that a connection hands to the directory, with what they come to. -/
def handed (conn : Nat) (b : BusyNetwork) (steps : List Step) : List Handover :=
  history (fun b step => (b.asked? conn step).toList.map fun text =>
    { text, response := (b.directory.applyText text).response }) b steps

variable {b b' : BusyNetwork} {conn : Nat} {c c' : Connection} {step : Step} {text : List Char}
  {who : Option Nat} {occurrence : Connection.Occurrence} {notice : Option (Nat × Notice)}
  {answering : Option Answering}

/-- A request that is taken in is handed over. -/
theorem asked?_eq (b : BusyNetwork) (conn : Nat) (step : Step) :
    b.asked? conn step = (b.occurrence conn step).request? := by
  cases step with
  | publish other => rfl
  | respond other => rfl
  | act action =>
    cases hc : b.network.connections[conn]? with
    | none =>
      have hnone : b.occurrence conn (.act action) = .silent := by simp only [occurrence, hc]
      rw [hnone]
      unfold asked?
      split
      · simp only [hc, Option.bind_none, Option.map_none, ite_self]
        rfl
      · rfl
    | some c =>
      simp only [occurrence, hc]
      cases action with
      | advance other =>
        simp only [asked?, hc, Option.bind_some, Action.connection?, Option.some.injEq,
          Action.isOfClient, Bool.false_eq_true, or_false]
        split
        · exact (c.request?_workOccurrence).symm
        · rfl
      | takeNotice other =>
        split
        · exact (c.request?_noticeOccurrence b.network.hub).symm
        · rfl
      | _ => split <;> rfl

/-! ## The notices that are kept in a run -/

theorem tellsChanges_enrolls {directory : Directory} {next : Hub × Connection}
    (h : b.directory.TellsChanges) (hn : Connection.Enrolls b.network.hub c next)
    (hd : directory.feed = next.1.directory.feed) : directory.TellsChanges := by
  have hsame : ∀ {other : Directory}, other.TellsChanges → directory.feed = other.feed →
      directory.TellsChanges := by
    intro other hother heq channel hfeed
    exact hother channel (heq ▸ hfeed)
  cases hn with
  | keeps feed_eq _ => exact hsame h (hd.trans feed_eq)
  | enters _ feed_eq _ => exact hsame h.subscribe (hd.trans feed_eq)
  | leaves _ feed_eq _ => exact hsame h.unsubscribe (hd.trans feed_eq)

/-- Every notice that is kept goes on to be the text of a change. -/
theorem tellsChanges_turn (h : b.directory.TellsChanges) (ht : b.Turn who occurrence notice b') :
    b'.directory.TellsChanges := by
  cases ht with
  | rest => exact h
  | connect session => exact h
  | pass milliseconds => exact h
  | receive bytes _ => exact h
  | limit room _ => exact h
  | move _ _ hmove => exact tellsChanges_enrolls h (Connection.enrolls_of_move hmove) rfl
  | begin _ _ _ => exact h
  | publish _ => exact h.publish _ _
  | respond _ _ => exact tellsChanges_enrolls h (Connection.enrolls_respond b.network.hub _ _) rfl

theorem tellsChanges_run (config : Config) (store : Store) (steps : List Step) :
    ((ofNetwork (Network.start config store)).run steps).directory.TellsChanges := by
  induction steps using List.reverseRecOn with
  | nil => exact (Network.sound_start config store).tells
  | append_singleton steps step ih =>
    obtain ⟨who, occurrence, notice, -, hturn⟩ :=
      run_step (ofNetwork (Network.start config store)) steps step
    exact tellsChanges_turn ih hturn

/-! ## One step of a connection -/

/-- What a connection does that has no request to answer is a move. -/
theorem Own.exists_move (h : b.Own conn c occurrence answering c') (hfree : b.answering conn = none)
    (hq : c.request? = none) :
    answering = none ∧ ∃ hub, c.Move b.network.now b.network.hub occurrence (hub, c') := by
  cases h with
  | receive bytes => exact ⟨hfree, _, .receive bytes⟩
  | limit room => exact ⟨hfree, _, .limit room⟩
  | move _ hmove => exact ⟨rfl, _, hmove⟩
  | begin _ hq' => exact nomatch hq.symm.trans hq'
  | publish ha => exact nomatch hfree.symm.trans ha
  | respond ha => exact nomatch hfree.symm.trans ha

/-- The response that is due. -/
def dueFrames (answering : Option Answering) : List Frame :=
  answering.toList.map fun answering => .ofText answering.response.render

/-- How far a connection has come with the requests in the bytes that arrived from its client. -/
inductive Progress (config : Config) (arrived : Bytes) (handed : List Handover)
    (answering : Option Answering) (c : Connection) : Prop where
  | waiting (stage_eq : c.stage = .handshaking { limit := config.maxHeadSize })
      (inbox_eq : c.inbox = arrived) (waiting : c.IsWaiting) (free : answering = none)
      (handed_eq : handed = [])
  | unserved (ended : c.hasEnded = true) (unserved : c.IsUnserved) (free : answering = none)
      (handed_eq : handed = [])
  | opened {value : String} {stream head : Bytes}
      (outcome_eq : Handshake.outcome? config.maxHeadSize arrived = some (.accepted value, stream))
      (switches : SwitchingHead head)
      (conducts : c.Conducts config.maxMessageSize stream head handed (dueFrames answering))

variable {config : Config} {arrived : Bytes} {handed : List Handover}

/-- What a connection hands over in a step of its own. -/
def handover (b : BusyNetwork) (occurrence : Connection.Occurrence) : List Handover :=
  occurrence.request?.toList.map fun text =>
    { text, response := (b.directory.applyText text).response }

theorem handover_of_none (h : occurrence.request? = none) : b.handover occurrence = [] := by
  rw [handover, h]
  rfl

theorem Progress.own_waiting (hconfig : c.config = config)
    (hs : c.stage = .handshaking { limit := config.maxHeadSize }) (hinbox : c.inbox = arrived)
    (hw : c.IsWaiting) (hfree : b.answering conn = none)
    (ho : b.Own conn c occurrence answering c') :
    Progress config (arrived ++ occurrence.bytes) (b.handover occurrence) answering c' := by
  have hq : c.request? = none := by simp only [Connection.request?, hs]
  obtain ⟨rfl, hub, hmove⟩ := ho.exists_move hfree hq
  rw [handover_of_none (Connection.request?_of_move hmove)]
  cases Connection.awaits_of_move hs hw hmove with
  | waits stage_eq _ inbox_eq waiting =>
    exact .waiting (stage_eq.trans hs) (hinbox ▸ inbox_eq) waiting rfl rfl
  | ends ended unserved => exact .unserved ended unserved rfl rfl
  | @begins value rest silent outcome_eq _ stage_eq config_eq inbox_eq output_eq _ =>
    rw [hinbox] at outcome_eq
    have harrived : arrived ++ occurrence.bytes = arrived := by
      rw [silent]
      exact List.append_nil _
    have hgoes : c'.Goes config.maxMessageSize rest (Outcome.accepted value).response [] [] [] := by
      refine ⟨?_, ?_, ?_, rfl⟩
      · rw [config_eq, hconfig]
      · intro more
        rw [inbox_eq]
        rfl
      · rw [output_eq, List.flatMap_nil, List.append_nil]
    rw [harrived]
    exact .opened outcome_eq (Upgrade.switchingHead_of_outcome? outcome_eq) (.serving stage_eq hgoes)

/-- A turn of the connection. -/
theorem Progress.own (h : Progress config arrived handed (b.answering conn) c)
    (hconfig : c.config = config) (htells : b.directory.TellsChanges)
    (ho : b.Own conn c occurrence answering c') :
    Progress config (arrived ++ occurrence.bytes) (handed ++ b.handover occurrence) answering c' := by
  cases h with
  | waiting stage_eq inbox_eq waiting free handed_eq =>
    subst handed_eq
    exact own_waiting hconfig stage_eq inbox_eq waiting free ho
  | unserved ended unserved free handed_eq =>
    have hq := Connection.request?_of_ended ended
    obtain ⟨rfl, hub, hmove⟩ := ho.exists_move free hq
    rw [handover_of_none (Connection.request?_of_move hmove), handed_eq]
    obtain ⟨-, room, heq⟩ := Connection.move_of_ended ended hmove
    obtain ⟨-, rfl⟩ := Prod.mk.inj heq
    exact .unserved ended ⟨unserved.unopened, unserved.answer⟩ rfl rfl
  | @opened value stream head outcome_eq switches conducts =>
    refine .opened (Handshake.outcome?_append occurrence.bytes outcome_eq) switches ?_
    have hquiet : stream ++ ([] : Bytes) = stream := List.append_nil stream
    cases ho with
    | receive bytes =>
      rw [handover_of_none rfl, List.append_nil]
      exact conducts.receive b.network.now bytes
    | limit room =>
      rw [handover_of_none rfl, List.append_nil]
      show Connection.Conducts _ (stream ++ []) _ _ _ _
      rw [hquiet]
      exact conducts.narrow room
    | move free move =>
      rw [free] at conducts
      rw [handover_of_none (Connection.request?_of_move move), List.append_nil]
      exact conducts.move htells move
    | @begin text rest free request_eq =>
      rw [free] at conducts
      have hasked : c.workOccurrence.request? = some text := by
        rw [Connection.request?_workOccurrence, request_eq]
        rfl
      have hbytes : c.workOccurrence.bytes = [] := by
        obtain ⟨_, frame, -, -, -, hwork, -⟩ := Connection.advance_of_request request_eq
        rw [hwork]
        rfl
      rw [handover, hasked, hbytes, hquiet]
      let made : Handover := { text, response := (b.directory.applyText text).response }
      have hq : c.request? = some (made.text, rest) := request_eq
      exact conducts.begin hq
    | publish answering_eq =>
      rw [answering_eq] at conducts
      rw [handover_of_none rfl, List.append_nil]
      show Connection.Conducts _ (stream ++ []) _ _ _ _
      rw [hquiet]
      exact conducts
    | respond answering_eq =>
      rw [answering_eq] at conducts
      rw [handover_of_none rfl, List.append_nil]
      show Connection.Conducts _ (stream ++ []) _ _ _ _
      rw [hquiet]
      exact conducts.respond _ _

/-! ## Runs -/

theorem handed_concat (conn : Nat) (start : BusyNetwork) (steps : List Step) (step : Step) :
    BusyNetwork.handed conn start (steps ++ [step]) = BusyNetwork.handed conn start steps ++
      (start.run steps).handover ((start.run steps).occurrence conn step) := by
  rw [BusyNetwork.handed, history_concat, asked?_eq]
  rfl

variable {store : Store} {steps : List Step}

/-- **How far every connection has come with its requests in every run.** -/
theorem progress_run
    (hc : ((ofNetwork (Network.start config store)).run steps).network.connections[conn]? = some c) :
    let start := ofNetwork (Network.start config store)
    c.config = config ∧ Progress config (BusyNetwork.arrived conn start steps)
      (BusyNetwork.handed conn start steps) ((start.run steps).answering conn) c := by
  intro start
  refine @forall_connection config store
    (fun steps => BusyNetwork.arrived conn start steps = [] ∧ BusyNetwork.handed conn start steps = [])
    (fun steps answering c => c.config = config ∧ Progress config
      (BusyNetwork.arrived conn start steps) (BusyNetwork.handed conn start steps) answering c)
    conn ?_ ?_ ?_ ?_ ?_ steps c hc
  · exact ⟨rfl, rfl⟩
  · intro steps step ⟨harrived, hhanded⟩ hsilent
    rw [arrived_concat, handed_concat, hsilent, harrived, hhanded]
    exact ⟨rfl, rfl⟩
  · intro steps step session ⟨harrived, hhanded⟩ b
    refine ⟨rfl, ?_⟩
    rw [harrived, hhanded]
    exact .waiting rfl rfl ⟨rfl, rfl, rfl, rfl⟩ rfl rfl
  · intro steps step answering c ⟨hconfig, hprogress⟩ hsilent
    rw [arrived_concat, handed_concat, hsilent]
    refine ⟨hconfig, ?_⟩
    show Progress config (_ ++ []) (_ ++ []) answering c
    rwa [List.append_nil, List.append_nil]
  · intro steps step occurrence answering c c' b ⟨hconfig, hprogress⟩ hc hseen hown hcontinues
    rw [arrived_concat, handed_concat, hseen]
    exact ⟨hcontinues.config_eq.trans hconfig,
      hprogress.own hconfig (tellsChanges_run config store steps) hown⟩

/-- A connection that has ended hands nothing over any more. -/
theorem handed_of_ended (hc : b.network.connections[conn]? = some c) (hended : c.hasEnded = true)
    (steps : List Step) : BusyNetwork.handed conn b steps = [] := by
  induction steps generalizing b c with
  | nil => rfl
  | cons step steps ih =>
    have hq := Connection.request?_of_ended hended
    have hnone : b.asked? conn step = none := by
      unfold asked?
      split
      · rw [hc, Option.bind_some, hq, Option.map_none, ite_self]
      · rfl
    obtain ⟨who, occurrence, notice, htakes⟩ := takes_step b step
    have hnext : ∃ c', (b.step step).network.connections[conn]? = some c' ∧ c'.hasEnded = true := by
      by_cases hwho : who = some conn
      · subst hwho
        obtain ⟨c', hc', hown⟩ := own_of_turn hc htakes.turn
        exact ⟨c', hc', hown.hasEnded hended⟩
      · exact ⟨c, (other_turn hc htakes.turn hwho).1, hended⟩
    obtain ⟨c', hc', hended'⟩ := hnext
    show (b.asked? conn step).toList.map _ ++ BusyNetwork.handed conn (b.step step) steps = []
    rw [hnone, ih hc' hended']
    rfl

/-- **What a connection has done with the requests of its client**: these frames went through behind the
head that switches protocols, and of a last one only a front. -/
structure Answered (config : Config) (arrived : Bytes) (handed : List Handover)
    (answering : Option Answering) (c : Connection) (frames : List Frame) (last : Option Frame)
    (front : Bytes) : Prop where
  /-- The bytes of the client are an upgrade request that is accepted, and a stream.  What was handed over
  are the first of the requests in the stream, each once and in order. -/
  requests : ∃ value stream head,
    Handshake.outcome? config.maxHeadSize arrived = some (.accepted value, stream) ∧
      SwitchingHead head ∧ c.outlet.output = head ++ frames.flatMap Frame.bytes ++ front ∧
      handed.map (·.text) <+: (Frame.readAll config.maxMessageSize stream).requests
  front_of : ∀ frame ∈ last, front <+: frame.bytes ∧ front.length < frame.bytes.length
  front_eq : last = none → front = []
  /-- The responses that went through are the first of those to the requests, in order. -/
  responses_prefix : frames.filter Frame.isResponse <+: handed.map (·.frame)
  /-- No more than one is missing. -/
  handed_le : handed.length ≤ (frames.filter Frame.isResponse).length + 1
  /-- One is missing only while it is being answered, or where its response was cut short, the last that
  was written; then the connection has ended, since its client was gone. -/
  missing : (frames.filter Frame.isResponse).length < handed.length →
    (answering.isSome ∧ c.hasEnded = false) ∨
      ∃ request, handed.getLast? = some request ∧ last = some request.frame ∧
        c.stage = .ended (.error .brokenPipe)

theorem answered_serving {value : String} {stream head : Bytes} {receiver : Option Receiver}
    {frames : List Frame}
    (houtcome : Handshake.outcome? config.maxHeadSize arrived = some (.accepted value, stream))
    (hhead : SwitchingHead head) (hs : c.stage = .serving receiver)
    (h : c.Goes config.maxMessageSize stream head handed (dueFrames answering) frames) :
    Answered config arrived handed answering c frames none [] := by
  have hlength := congrArg List.length h.responses_eq
  rw [List.length_append, List.length_map] at hlength
  have hdue : (dueFrames answering).length = if answering.isSome then 1 else 0 := by
    cases answering <;> rfl
  refine ⟨⟨value, stream, head, houtcome, hhead, ?_, ?_⟩, nofun, fun _ => rfl, ?_, ?_, ?_⟩
  · rw [h.output_eq, List.append_nil]
  · have hfront := h.requests_front []
    rwa [List.append_nil] at hfront
  · rw [← h.responses_eq]
    exact List.prefix_append _ _
  · split at hdue <;> omega
  · intro hmissing
    refine .inl ⟨?_, by simp only [Connection.hasEnded, hs]⟩
    by_contra hnone
    rw [if_neg hnone] at hdue
    omega

theorem answered_ended {value : String} {stream head front : Bytes} {frames : List Frame}
    {last : Option Frame}
    (houtcome : Handshake.outcome? config.maxHeadSize arrived = some (.accepted value, stream))
    (hhead : SwitchingHead head)
    (h : c.Stops config.maxMessageSize stream head handed frames last front) :
    Answered config arrived handed none c frames last front := by
  have hresponses := h.responses_eq
  rw [List.filter_append] at hresponses
  have hlength := congrArg List.length hresponses
  rw [List.length_append, List.length_map] at hlength
  have hlast : (last.toList.filter Frame.isResponse).length ≤ 1 := by
    refine Nat.le_trans (List.length_filter_le _ _) ?_
    cases last <;> simp
  refine ⟨⟨value, stream, head, houtcome, hhead, h.output_eq, ?_⟩, h.front_of, h.front_eq, ?_,
    by omega, ?_⟩
  · have hfront := h.requests_prefix []
    rwa [List.append_nil] at hfront
  · rw [← hresponses]
    exact List.prefix_append _ _
  · intro hmissing
    -- the last frame is the response that is missing
    cases last with
    | none =>
      simp only [Option.toList_none, List.filter_nil, List.length_nil] at hlength
      omega
    | some frame =>
      cases hframe : frame.isResponse with
      | false =>
        simp only [Option.toList_some, List.filter_cons, hframe, Bool.false_eq_true, if_false,
          List.filter_nil, List.length_nil] at hlength
        omega
      | true =>
        simp only [Option.toList_some, List.filter_cons, hframe, if_true, List.filter_nil]
          at hresponses
        have hget := congrArg List.getLast? hresponses
        rw [List.getLast?_concat, List.getLast?_map] at hget
        obtain ⟨request, hrequest, heq⟩ := Option.map_eq_some_iff.mp hget.symm
        exact .inr ⟨request, hrequest, congrArg some heq.symm, h.broken frame rfl hframe⟩

/-- **At most one request is applied and not answered.**  Whatever the clients send, whenever they are
gone, and however the steps of the connections interleave: a connection that was not opened has handed
nothing over; one that was opened has answered its requests in order, but for one.  From its end on it
hands nothing over. -/
theorem handed_run
    (hc : ((ofNetwork (Network.start config store)).run steps).network.connections[conn]? = some c) :
    let start := ofNetwork (Network.start config store)
    let handed := BusyNetwork.handed conn start steps
    ((handed = [] ∧ c.IsUnserved) ∨
      ∃ frames last front, Answered config (BusyNetwork.arrived conn start steps) handed
        ((start.run steps).answering conn) c frames last front) ∧
    (c.hasEnded = true → ∀ more, BusyNetwork.handed conn start (steps ++ more) = handed) := by
  intro start handed
  refine ⟨?_, ?_⟩
  · obtain ⟨-, hprogress⟩ := progress_run hc
    cases hprogress with
    | waiting _ _ waiting _ handed_eq => exact .inl ⟨handed_eq, waiting.isUnserved⟩
    | unserved _ unserved _ handed_eq => exact .inl ⟨handed_eq, unserved⟩
    | opened outcome_eq switches conducts =>
      refine .inr ?_
      cases conducts with
      | serving stage_eq goes =>
        exact ⟨_, _, _, answered_serving outcome_eq switches stage_eq goes⟩
      | ended due_eq stops =>
        have hfree : (start.run steps).answering conn = none := by
          cases hanswering : (start.run steps).answering conn with
          | none => rfl
          | some answering =>
            rw [hanswering] at due_eq
            cases due_eq
        rw [hfree]
        exact ⟨_, _, _, answered_ended outcome_eq switches stops⟩
  · intro hended more
    show history _ start (steps ++ more) = _
    rw [history_append]
    have hnone := handed_of_ended hc hended more
    rw [BusyNetwork.handed] at hnone
    rw [hnone, List.append_nil]
    rfl

/-- A client sends two requests at once and is gone after five more bytes: the first is handed over and its
response is cut short, and the second stays in the inbox. -/
theorem handed_of_client_gone :
    let config : Config := {}
    let request := Utf8.encode ("GET / HTTP/1.1\r\nUpgrade: websocket\r\nConnection: Upgrade\r\n" ++
      "Sec-WebSocket-Key: dGhlIHNhbXBsZSBub25jZQ==\r\nSec-WebSocket-Version: 13\r\n\r\n").toList
    let listing := [0x81, 0x92, 0, 0, 0, 0] ++ Utf8.encode "\x7b\"request\":\"list\"\x7d".toList
    let steps := [.act (.connect 1), .act (.receive 0 request), .act (.advance 0),
      .act (.limitOutlet 0 5), .act (.receive 0 (listing ++ listing)), .act (.advance 0),
      .respond 0, .act (.advance 0), .respond 0]
    (BusyNetwork.handed 0 (ofNetwork (Network.start config)) steps).length = 1 ∧
      ∃ c, ((ofNetwork (Network.start config)).run steps).network.connections[0]? = some c ∧
        c.hasEnded = true ∧
        (∃ frames last front, Answered config
          (BusyNetwork.arrived 0 (ofNetwork (Network.start config)) steps)
          (BusyNetwork.handed 0 (ofNetwork (Network.start config)) steps)
          (((ofNetwork (Network.start config)).run steps).answering 0) c frames last front) ∧
        ∀ more, BusyNetwork.handed 0 (ofNetwork (Network.start config)) (steps ++ more) =
          BusyNetwork.handed 0 (ofNetwork (Network.start config)) steps := by
  intro config request listing steps
  have hfacts : ((BusyNetwork.handed 0 (ofNetwork (Network.start config)) steps).length,
      ((ofNetwork (Network.start config)).run steps).network.connections[0]?.map fun c =>
        (c.session.openedAt.isSome, c.hasEnded)) = (1, some (true, true)) := by
    decide +kernel
  obtain ⟨hlength, hconnection⟩ := Prod.mk.inj hfacts
  obtain ⟨c, hc, hstate⟩ := Option.map_eq_some_iff.mp hconnection
  obtain ⟨hopen, hended⟩ := Prod.mk.inj hstate
  obtain ⟨hanswered, hover⟩ := handed_run hc
  refine ⟨hlength, c, hc, hended, ?_, hover hended⟩
  rcases hanswered with ⟨-, hunserved⟩ | hanswered
  · rw [hunserved.unopened] at hopen
    cases hopen
  · exact hanswered

end BusyNetwork

end ServiceDirectory
