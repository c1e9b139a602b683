import Mathlib.Data.List.Induction
import Mathlib.Data.List.Nodup
import ServiceDirectory.Proofs.Network.Interleaving

/-!
# Who caused what

Connections of a busy network only go forward, each by its own steps (`BusyNetwork.connection_run`).  A
request in the middle of its answer belongs to the session of its connection (`BusyNetwork.Attributed`),
so every notice bears the session of the connection that published it (`BusyNetwork.Attributed.published_run`).
Where sessions have distinct numbers, the number on a notice tells which connection that was
(`BusyNetwork.id_eq_iff`).
-/

namespace ServiceDirectory

namespace BusyNetwork

variable {b b' : BusyNetwork} {conn : Nat} {c : Connection} {who : Option Nat}
  {occurrence : Connection.Occurrence} {notice : Option (Nat × Notice)}

/-! ## Connections go forward -/

theorem getElem?_set {l : List Connection} {i : Nat} {d : Connection} (hd : l[i]? = some d)
    (hc : l[conn]? = some c) {d' : Connection} (h : d.Continues d') :
    ∃ c', (l.set i d')[conn]? = some c' ∧ c.Continues c' ∧ (some i ≠ some conn → c' = c) := by
  by_cases heq : i = conn
  · subst heq
    obtain rfl : d = c := Option.some.inj (hd.symm.trans hc)
    exact ⟨d', List.getElem?_set_self (List.getElem?_eq_some_iff.mp hc).1, h,
      fun hne => (hne rfl).elim⟩
  · exact ⟨c, (List.getElem?_set_ne heq).trans hc, .refl c, fun _ => rfl⟩

theorem continues_respond (hub : Hub) (c : Connection) (response : Response) :
    c.Continues (c.respond hub response).2 := by
  have hcounted : c.Continues { c with session := c.session.addMessage } :=
    .of_session c.session.advances_addMessage _ _
  exact hcounted.trans (Connection.continues_writeThen fun _ _ h => h)

/-- **A step leaves the connections of others as they are.** -/
theorem connection_turn (hc : b.network.connections[conn]? = some c)
    (ht : b.Turn who occurrence notice b') :
    ∃ c', b'.network.connections[conn]? = some c' ∧ c.Continues c' ∧ (who ≠ some conn → c' = c) := by
  have hself : ∃ c', b.network.connections[conn]? = some c' ∧ c.Continues c' ∧
      (who ≠ some conn → c' = c) :=
    ⟨c, hc, .refl c, fun _ => rfl⟩
  cases ht with
  | rest => exact hself
  | connect session =>
    refine ⟨c, ?_, .refl c, fun _ => rfl⟩
    show (b.network.connections ++ [_])[conn]? = some c
    rw [List.getElem?_append_left (List.getElem?_eq_some_iff.mp hc).1]
    exact hc
  | pass milliseconds => exact hself
  | receive bytes hd => exact getElem?_set hd hc (Connection.continues_receive _ _ bytes)
  | limit room hd => exact getElem?_set hd hc ⟨rfl, .refl _, List.prefix_refl _⟩
  | move hd _ hmove => exact getElem?_set hd hc (Connection.continues_of_move hmove)
  | begin hd _ _ => exact getElem?_set hd hc (.of_session (.refl _) _ _)
  | publish _ => exact hself
  | respond hd _ => exact getElem?_set hd hc (continues_respond _ _ _)

/-- A step leaves the answers of others as they are. -/
theorem answering_turn (ht : b.Turn who occurrence notice b') (hwho : who ≠ some conn) :
    b'.answering conn = b.answering conn := by
  have hupdate : ∀ {other : Nat} {a : Option Answering}, some other ≠ some conn →
      Function.update b.answering other a conn = b.answering conn :=
    fun hne => Function.update_of_ne (fun heq => hne (congrArg some heq.symm)) _ _
  cases ht with
  | rest => rfl
  | connect session => rfl
  | pass milliseconds => rfl
  | receive bytes _ => rfl
  | limit room _ => rfl
  | move _ _ _ => rfl
  | begin _ _ _ => exact hupdate hwho
  | publish _ => exact hupdate hwho
  | respond _ _ => exact hupdate hwho

/-- A connection that does not take part in a step. -/
theorem other_turn (hc : b.network.connections[conn]? = some c)
    (ht : b.Turn who occurrence notice b') (hwho : who ≠ some conn) :
    b'.network.connections[conn]? = some c ∧ b'.answering conn = b.answering conn := by
  obtain ⟨c', hc', -, hsame⟩ := connection_turn hc ht
  obtain rfl := hsame hwho
  exact ⟨hc', answering_turn ht hwho⟩

theorem connection_run (hc : b.network.connections[conn]? = some c) (steps : List Step) :
    ∃ c', (b.run steps).network.connections[conn]? = some c' ∧ c.Continues c' := by
  induction steps generalizing b c with
  | nil => exact ⟨c, hc, .refl c⟩
  | cons step steps ih =>
    obtain ⟨who, occurrence, notice, htakes⟩ := takes_step b step
    obtain ⟨c₁, hc₁, hfirst, -⟩ := connection_turn hc htakes.turn
    obtain ⟨c', hc', hrest⟩ := ih hc₁
    exact ⟨c', hc', hfirst.trans hrest⟩

theorem config_turn (ht : b.Turn who occurrence notice b') :
    b'.network.config = b.network.config := by
  cases ht <;> rfl

theorem config_run (b : BusyNetwork) (steps : List Step) :
    (b.run steps).network.config = b.network.config := by
  induction steps generalizing b with
  | nil => rfl
  | cons step steps ih =>
    obtain ⟨who, occurrence, notice, htakes⟩ := takes_step b step
    exact (ih (b.step step)).trans (config_turn htakes.turn)

/-! ## One connection in a run -/

theorem run_step (start : BusyNetwork) (steps : List Step) (step : Step) :
    ∃ who occurrence notice,
      (start.run steps).Takes step who occurrence notice ∧
      (start.run steps).Turn who occurrence notice (start.run (steps ++ [step])) := by
  obtain ⟨who, occurrence, notice, htakes⟩ := takes_step (start.run steps) step
  refine ⟨who, occurrence, notice, htakes, ?_⟩
  rw [run_concat]
  exact htakes.turn

/-- The time does not go back. -/
theorem now_le_turn (ht : b.Turn who occurrence notice b') : b.network.now ≤ b'.network.now := by
  cases ht with
  | pass milliseconds => exact Nat.le_add_right _ _
  | _ => exact Nat.le_refl _

theorem now_le_concat (start : BusyNetwork) (steps : List Step) (step : Step) :
    (start.run steps).network.now ≤ (start.run (steps ++ [step])).network.now := by
  obtain ⟨who, occurrence, notice, -, hturn⟩ := run_step start steps step
  exact now_le_turn hturn

theorem arrived_concat (conn : Nat) (start : BusyNetwork) (steps : List Step) (step : Step) :
    arrived conn start (steps ++ [step]) =
      arrived conn start steps ++ ((start.run steps).occurrence conn step).bytes :=
  history_concat _ start steps step

/-- Where there is no connection there is none after a step, or one that was made by it. -/
theorem absent_turn (hc : b.network.connections[conn]? = none) (hfree : b.answering conn = none)
    (ht : b.Turn who occurrence notice b') :
    who ≠ some conn ∧ (b'.network.connections[conn]? = none ∨
      ∃ session, b'.network.connections[conn]? =
        some (Connection.start b.network.config session b.network.now b.network.hub).2) := by
  have hlength : b.network.connections.length ≤ conn := List.getElem?_eq_none_iff.mp hc
  have hset : ∀ {other : Nat} {d : Connection} (d' : Connection),
      b.network.connections[other]? = some d →
      some other ≠ some conn ∧ ((b.network.connections.set other d')[conn]? = none ∨
        ∃ session, (b.network.connections.set other d')[conn]? =
          some (Connection.start b.network.config session b.network.now b.network.hub).2) := by
    intro other d d' hd
    refine ⟨?_, .inl ?_⟩
    · intro heq
      rw [Option.some.inj heq, hc] at hd
      cases hd
    · exact List.getElem?_eq_none_iff.mpr (by rwa [List.length_set])
  have hnone : (none : Option Nat) ≠ some conn := fun heq => nomatch heq
  cases ht with
  | rest => exact ⟨hnone, .inl hc⟩
  | connect session =>
    refine ⟨hnone, ?_⟩
    show (b.network.connections ++ [_])[conn]? = none ∨
      ∃ session, (b.network.connections ++ [_])[conn]? = _
    rw [List.getElem?_append_right hlength]
    cases hn : conn - b.network.connections.length with
    | zero => exact .inr ⟨session, rfl⟩
    | succ n => exact .inl rfl
  | pass milliseconds => exact ⟨hnone, .inl hc⟩
  | receive bytes hd => exact hset _ hd
  | limit room hd => exact hset _ hd
  | move hd _ _ => exact hset _ hd
  | begin hd _ _ => exact hset _ hd
  | publish ha =>
    refine ⟨?_, .inl hc⟩
    intro heq
    rw [Option.some.inj heq, hfree] at ha
    cases ha
  | respond hd _ => exact hset _ hd

/-- The turns of a connection that has no request to answer are moves. -/
theorem move_of_turn (hc : b.network.connections[conn]? = some c) (hfree : b.answering conn = none)
    (hq : c.request? = none) (ht : b.Turn (some conn) occurrence notice b') :
    ∃ next, c.Move b.network.now b.network.hub occurrence next ∧ b'.network.hub = next.1 ∧
      b'.network.connections[conn]? = some next.2 ∧ b'.answering conn = none := by
  have hset : ∀ c', (b.network.connections.set conn c')[conn]? = some c' :=
    fun c' => List.getElem?_set_self (List.getElem?_eq_some_iff.mp hc).1
  have hthis : ∀ {c' : Connection}, b.network.connections[conn]? = some c' → c = c' :=
    fun hc' => Option.some.inj (hc.symm.trans hc')
  cases ht with
  | receive bytes hc' =>
    obtain rfl := hthis hc'
    exact ⟨_, .receive bytes, rfl, hset _, hfree⟩
  | limit room hc' =>
    obtain rfl := hthis hc'
    exact ⟨_, .limit room, rfl, hset _, hfree⟩
  | move hc' _ hmove =>
    obtain rfl := hthis hc'
    exact ⟨_, hmove, rfl, hset _, hfree⟩
  | begin hc' _ hq' =>
    obtain rfl := hthis hc'
    exact nomatch hq.symm.trans hq'
  | publish ha => exact nomatch hfree.symm.trans ha
  | respond _ ha => exact nomatch hfree.symm.trans ha

/-- What a connection does in a turn of its own, and which answer it is in the middle of then: its client
does something, or it moves, or it takes one of the three steps of an answer. -/
inductive Own (b : BusyNetwork) (conn : Nat) (c : Connection) :
    Connection.Occurrence → Option Answering → Connection → Prop where
  | receive (bytes : Bytes) :
      Own b conn c (.arrival bytes) (b.answering conn) (c.receive b.network.now bytes)
  | limit (room : Option Nat) :
      Own b conn c .silent (b.answering conn) { c with outlet := { c.outlet with room } }
  | move {occurrence : Connection.Occurrence} {next : Hub × Connection}
      (free : b.answering conn = none)
      (move : c.Move b.network.now b.network.hub occurrence next) : Own b conn c occurrence none next.2
  | begin {text : List Char} {rest : Bytes} (free : b.answering conn = none)
      (request_eq : c.request? = some (text, rest)) :
      Own b conn c c.workOccurrence
        (some ⟨c.session.id, (b.directory.applyText text).change,
          (b.directory.applyText text).response⟩) { c with inbox := rest }
  | publish {session : SessionId} {change : Change} {response : Response}
      (answering_eq : b.answering conn = some ⟨session, some change, response⟩) :
      Own b conn c .silent (some ⟨session, none, response⟩) c
  | respond {session : SessionId} {response : Response}
      (answering_eq : b.answering conn = some ⟨session, none, response⟩) :
      Own b conn c .silent none (c.respond b.network.hub response).2

theorem hasEnded_message (h : c.hasEnded = true) (hub : Hub) (bytes : Bytes) :
    (Connection.writeThen hub c bytes Connection.stay).2.hasEnded = true :=
  Connection.writeThen_cases (P := fun next => next.2.hasEnded = true)
    (fun _ _ _ => h) (fun _ _ _ _ _ _ => rfl)

/-- A connection that has ended does nothing any more. -/
theorem Own.hasEnded {answering : Option Answering} {c' : Connection} (h : c.hasEnded = true)
    (ho : b.Own conn c occurrence answering c') : c'.hasEnded = true := by
  cases ho with
  | receive bytes =>
    rw [Connection.receive_of_ended h]
    exact h
  | limit room => exact h
  | move _ hmove =>
    obtain ⟨-, room, rfl⟩ := Connection.move_of_ended h hmove
    exact h
  | begin _ hq =>
    obtain ⟨receiver, frame, hs, -⟩ := Connection.advance_of_request hq
    simp [Connection.hasEnded, hs] at h
  | publish _ => exact h
  | respond _ =>
    exact hasEnded_message (c := { c with session := c.session.addMessage }) h _ _

theorem own_of_turn (hc : b.network.connections[conn]? = some c)
    (ht : b.Turn (some conn) occurrence notice b') :
    ∃ c', b'.network.connections[conn]? = some c' ∧
      b.Own conn c occurrence (b'.answering conn) c' := by
  have hset : ∀ c', (b.network.connections.set conn c')[conn]? = some c' :=
    fun c' => List.getElem?_set_self (List.getElem?_eq_some_iff.mp hc).1
  have hthis : ∀ {c' : Connection}, b.network.connections[conn]? = some c' → c = c' :=
    fun hc' => Option.some.inj (hc.symm.trans hc')
  have hupdate : ∀ answering, Function.update b.answering conn answering conn = answering :=
    fun answering => Function.update_self conn answering b.answering
  cases ht with
  | receive bytes hc' =>
    obtain rfl := hthis hc'
    exact ⟨_, hset _, .receive bytes⟩
  | limit room hc' =>
    obtain rfl := hthis hc'
    exact ⟨_, hset _, .limit room⟩
  | move hc' hfree hmove =>
    obtain rfl := hthis hc'
    refine ⟨_, hset _, ?_⟩
    show b.Own conn c occurrence (b.answering conn) _
    rw [hfree]
    exact .move hfree hmove
  | begin hc' hfree hq =>
    obtain rfl := hthis hc'
    refine ⟨_, hset _, ?_⟩
    show b.Own conn c _ (Function.update b.answering conn _ conn) _
    rw [hupdate]
    exact .begin hfree hq
  | publish ha =>
    refine ⟨c, hc, ?_⟩
    show b.Own conn c _ (Function.update b.answering conn _ conn) _
    rw [hupdate]
    exact .publish ha
  | respond hc' ha =>
    obtain rfl := hthis hc'
    refine ⟨_, hset _, ?_⟩
    show b.Own conn c _ (Function.update b.answering conn _ conn) _
    rw [hupdate]
    exact .respond ha

/-- **The run of one connection.**  `absent` is what is true of a run before the connection is made, and
`present` what is true of the run, of the answer that the connection is in the middle of, and of the
connection after that.  It is enough to look at the step by which the connection is made, at its own steps,
and at those of others, of which it is told nothing. -/
theorem forall_connection {config : Config} {store : Store} {absent : List Step → Prop}
    {present : List Step → Option Answering → Connection → Prop} (conn : Nat)
    (nothing : absent [])
    (waits : ∀ steps step, absent steps →
      ((ofNetwork (Network.start config store)).run steps).occurrence conn step = .silent →
      absent (steps ++ [step]))
    (starts : ∀ steps step session, absent (steps ++ [step]) →
      let b := (ofNetwork (Network.start config store)).run steps
      present (steps ++ [step]) none
        (Connection.start config session b.network.now b.network.hub).2)
    (others : ∀ steps step answering c, present steps answering c →
      ((ofNetwork (Network.start config store)).run steps).occurrence conn step = .silent →
      present (steps ++ [step]) answering c)
    (own : ∀ steps step occurrence answering c c',
      let b := (ofNetwork (Network.start config store)).run steps
      present steps (b.answering conn) c → b.network.connections[conn]? = some c →
      b.occurrence conn step = occurrence → b.Own conn c occurrence answering c' → c.Continues c' →
      present (steps ++ [step]) answering c')
    (steps : List Step) (c : Connection)
    (hc : ((ofNetwork (Network.start config store)).run steps).network.connections[conn]? = some c) :
    present steps (((ofNetwork (Network.start config store)).run steps).answering conn) c := by
  -- while the connection is not there, there is no answer that it could be in the middle of
  suffices h : (((ofNetwork (Network.start config store)).run steps).network.connections[conn]? = none ∧
      ((ofNetwork (Network.start config store)).run steps).answering conn = none ∧ absent steps) ∨
      ∃ c, ((ofNetwork (Network.start config store)).run steps).network.connections[conn]? = some c ∧
        present steps (((ofNetwork (Network.start config store)).run steps).answering conn) c by
    rcases h with ⟨hnone, -, -⟩ | ⟨c', hc', hpresent⟩
    · exact nomatch hnone.symm.trans hc
    · obtain rfl := Option.some.inj (hc'.symm.trans hc)
      exact hpresent
  clear hc
  induction steps using List.reverseRecOn with
  | nil => exact .inl ⟨rfl, rfl, nothing⟩
  | append_singleton steps step ih =>
    obtain ⟨who, occurrence, notice, htakes, hturn⟩ :=
      run_step (ofNetwork (Network.start config store)) steps step
    have hseen := htakes.occurrence_eq conn
    rcases ih with ⟨hnone, hfree, habsent⟩ | ⟨c, hc, hpresent⟩
    · obtain ⟨hwho, hnext⟩ := absent_turn hnone hfree hturn
      rw [if_neg hwho] at hseen
      have hfree' := (answering_turn hturn hwho).trans hfree
      have habsent' := waits steps step habsent hseen
      rcases hnext with hnone' | ⟨session, hsome⟩
      · exact .inl ⟨hnone', hfree', habsent'⟩
      · rw [config_run] at hsome
        refine .inr ⟨_, hsome, ?_⟩
        rw [hfree']
        exact starts steps step session habsent'
    · by_cases hwho : who = some conn
      · subst hwho
        rw [if_pos rfl] at hseen
        obtain ⟨c', hc', hown⟩ := own_of_turn hc hturn
        obtain ⟨c'', hc'', hcontinues, -⟩ := connection_turn hc hturn
        obtain rfl := Option.some.inj (hc''.symm.trans hc')
        exact .inr ⟨_, hc', own steps step occurrence _ c _ hpresent hc hseen hown hcontinues⟩
      · rw [if_neg hwho] at hseen
        obtain ⟨hc', hanswering⟩ := other_turn hc hturn hwho
        refine .inr ⟨c, hc', ?_⟩
        rw [hanswering]
        exact others steps step _ c hpresent hseen

/-! ## Notices bear the session that published them -/

/-- Every request in the middle of its answer belongs to the session of its connection. -/
def Attributed (b : BusyNetwork) : Prop :=
  ∀ conn answering, b.answering conn = some answering →
    ∃ c, b.network.connections[conn]? = some c ∧ c.session.id = answering.session

theorem Attributed.turn (h : b.Attributed) (ht : b.Turn who occurrence notice b') :
    b'.Attributed := by
  intro conn answering ha
  have hforward : ∀ {c : Connection}, b.network.connections[conn]? = some c →
      c.session.id = answering.session →
      ∃ c', b'.network.connections[conn]? = some c' ∧ c'.session.id = answering.session := by
    intro c hc hid
    obtain ⟨c', hc', hcontinues, -⟩ := connection_turn hc ht
    exact ⟨c', hc', hcontinues.session.id_eq.trans hid⟩
  by_cases hwho : who = some conn
  · subst hwho
    have hkept : b.answering conn = some answering →
        ∃ c', b'.network.connections[conn]? = some c' ∧ c'.session.id = answering.session := by
      intro ha
      obtain ⟨c, hc, hid⟩ := h conn answering ha
      exact hforward hc hid
    cases ht with
    | receive bytes _ => exact hkept ha
    | limit room _ => exact hkept ha
    | move _ _ _ => exact hkept ha
    | begin hc _ _ =>
      have hset : _ = some answering := (Function.update_self conn _ b.answering).symm.trans ha
      obtain rfl := Option.some.inj hset
      exact hforward hc rfl
    | publish hp =>
      have hset : _ = some answering := (Function.update_self conn _ b.answering).symm.trans ha
      obtain rfl := Option.some.inj hset
      obtain ⟨c, hc, hid⟩ := h conn _ hp
      exact hforward hc hid
    | respond _ _ =>
      have hset : none = some answering := (Function.update_self conn _ b.answering).symm.trans ha
      exact nomatch hset
  · rw [answering_turn ht hwho] at ha
    obtain ⟨c, hc, hid⟩ := h conn answering ha
    exact hforward hc hid

/-- The notice of a step. -/
theorem Attributed.notice_turn (h : b.Attributed) (ht : b.Turn who occurrence notice b')
    {made : Nat × Notice} (hm : notice = some made) :
    ∃ change c, b.network.connections[made.1]? = some c ∧
      made.2 = Change.notice change c.session.id := by
  cases ht with
  | @publish conn session change _ hp =>
    obtain rfl := Option.some.inj hm
    obtain ⟨c, hc, rfl⟩ := h conn _ hp
    exact ⟨change, c, hc, rfl⟩
  | _ => exact nomatch hm

/-- **Every notice bears the session of the connection that published it.** -/
theorem Attributed.published_run (h : b.Attributed) (steps : List Step) :
    ∀ made ∈ b.published steps, ∃ change c,
      (b.run steps).network.connections[made.1]? = some c ∧
        made.2 = Change.notice change c.session.id := by
  induction steps generalizing b with
  | nil => exact fun made hmade => (List.not_mem_nil hmade).elim
  | cons step steps ih =>
    intro made hmade
    obtain ⟨who, occurrence, notice, htakes⟩ := takes_step b step
    rcases List.mem_append.mp hmade with hmade | hmade
    · have hnotice : made ∈ (b.notice? step).toList := hmade
      rw [htakes.notice_eq] at hnotice
      obtain ⟨change, c, hc, heq⟩ :=
        h.notice_turn htakes.turn (Option.mem_toList.mp hnotice)
      obtain ⟨c', hc', hcontinues⟩ := connection_run hc (step :: steps)
      exact ⟨change, c', hc', hcontinues.session.id_eq ▸ heq⟩
    · exact ih (h.turn htakes.turn) made hmade

theorem attributed_ofNetwork (network : Network) : (ofNetwork network).Attributed :=
  fun _ _ ha => nomatch ha

/-- Where sessions have distinct numbers, the number tells the connection. -/
theorem id_eq_iff (h : (b.network.connections.map (·.session.id)).Nodup)
    (hc : b.network.connections[conn]? = some c) {other : Nat} {d : Connection}
    (hd : b.network.connections[other]? = some d) : d.session.id = c.session.id ↔ other = conn := by
  constructor
  · intro hid
    have hlt : other < (b.network.connections.map (·.session.id)).length := by
      rw [List.length_map]
      exact (List.getElem?_eq_some_iff.mp hd).1
    refine (List.getElem?_inj hlt h).mp ?_
    rw [List.getElem?_map, List.getElem?_map, hc, hd]
    exact congrArg some hid
  · intro heq
    subst heq
    rw [Option.some.inj (hd.symm.trans hc)]

end BusyNetwork

end ServiceDirectory
