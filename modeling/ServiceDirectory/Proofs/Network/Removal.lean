import ServiceDirectory.Proofs.Network.Likeness
import ServiceDirectory.Proofs.Network.Requests

/-!
# A network without one of its connections

Take a run of any number of connections and take one connection out of it: it is not made, none of its
steps happens, and the connections made after it have a number less (`BusyNetwork.without`).

As long as no request of this connection makes a change, the network with it and the network without it
stay alike in all that the other connections can notice (`BusyNetwork.AlikeWithout`).  What is different are
the positions in the channel of notices and the number of its receivers: a notice is dropped where the
connection would have been the only one to read it.
-/

namespace ServiceDirectory

/-! ## Steps without a connection -/

/-- The action, of a connection with another number. -/
def Action.renumbered (f : Nat → Nat) : Action → Action
  | .connect session => .connect session
  | .receive conn bytes => .receive (f conn) bytes
  | .endInput conn => .endInput (f conn)
  | .failInput conn cause => .failInput (f conn) cause
  | .breakOutlet conn => .breakOutlet (f conn)
  | .limitOutlet conn room => .limitOutlet (f conn) room
  | .advance conn => .advance (f conn)
  | .suspend conn => .suspend (f conn)
  | .takeNotice conn => .takeNotice (f conn)
  | .expire conn => .expire (f conn)
  | .expireAnswering conn room => .expireAnswering (f conn) room
  | .pass milliseconds => .pass milliseconds

namespace Action

variable {f : Nat → Nat} (action : Action)

@[simp] theorem connection?_renumbered :
    (action.renumbered f).connection? = action.connection?.map f := by
  cases action <;> rfl

@[simp] theorem isOfClient_renumbered : (action.renumbered f).isOfClient = action.isOfClient := by
  cases action <;> rfl

@[simp] theorem request?_renumbered (c : Connection) :
    (action.renumbered f).request? c = action.request? c := by
  cases action <;> rfl

@[simp] theorem effect_renumbered (now : Nat) (hub : Hub) (c : Connection) :
    (action.renumbered f).effect now hub c = action.effect now hub c := by
  cases action <;> rfl

end Action

namespace BusyNetwork

/-- The number of a connection after the connection `out` was taken out. -/
def numberWithout (out conn : Nat) : Nat := if conn < out then conn else conn - 1

/-- What is left of a step when the connection `out` is taken out, where `made` connections have been made
so far. -/
def Step.without? (out made : Nat) : Step → Option Step
  | .act (.connect session) => if made = out then none else some (.act (.connect session))
  | .act action =>
    if action.connection? = some out then none
    else some (.act (action.renumbered (numberWithout out)))
  | .publish conn => if conn = out then none else some (.publish (numberWithout out conn))
  | .respond conn => if conn = out then none else some (.respond (numberWithout out conn))

/-- A run without the connection `out`. -/
def without (out : Nat) (b : BusyNetwork) (steps : List Step) : List Step :=
  history (fun b step => (step.without? out b.network.connections.length).toList) b steps

/-- All connections but one. -/
def others (b : BusyNetwork) (out : Nat) : List Connection := b.network.connections.eraseIdx out

/-! ## Networks that are alike but for one connection -/

/-- Two busy networks, the second of which is without a connection of the first, that are otherwise
alike.  The connection may be in the middle of an answer, but not to a request that made a change. -/
structure AlikeWithout (out : Nat) (full alone : BusyNetwork) : Prop where
  config_eq : alone.network.config = full.network.config
  now_eq : alone.network.now = full.network.now
  directory : full.directory.Alike alone.directory
  length_eq : alone.network.connections.length = (full.others out).length
  connections : ∀ (i : Nat) (c d : Connection), (full.others out)[i]? = some c →
    alone.network.connections[i]? = some d → Connection.Alike full.directory alone.directory c d
  answering_eq : ∀ conn, conn ≠ out → alone.answering (numberWithout out conn) = full.answering conn
  unchanging : ∀ answering, full.answering out = some answering → answering.change = none

variable {out conn : Nat} {full alone : BusyNetwork}

theorem numberWithout_inj {other : Nat} (h : conn ≠ out) (hother : other ≠ out) :
    numberWithout out conn = numberWithout out other ↔ conn = other := by
  unfold numberWithout
  split <;> split <;> omega

theorem getElem?_eraseIdx_numberWithout (h : conn ≠ out) (l : List α) :
    (l.eraseIdx out)[numberWithout out conn]? = l[conn]? := by
  unfold numberWithout
  rw [List.getElem?_eraseIdx]
  split
  · rfl
  · rw [if_neg (by omega), show conn - 1 + 1 = conn from by omega]

theorem eraseIdx_set_numberWithout (h : conn ≠ out) (l : List α) (x : α) :
    (l.set conn x).eraseIdx out = (l.eraseIdx out).set (numberWithout out conn) x := by
  unfold numberWithout
  split
  · next hlt => exact List.eraseIdx_set_gt hlt
  · exact List.eraseIdx_set_lt (by omega)

/-! ### Steps of the connection that is taken out -/

/-- The connection that is taken out does something to itself, and to the directory no more than that
receivers come or go. -/
theorem AlikeWithout.withNext_out (h : AlikeWithout out full alone) {next : Hub × Connection}
    (hd : full.directory.Attends next.1.directory) : AlikeWithout out (full.withNext out next) alone := by
  have hothers : (full.withNext out next).others out = full.others out :=
    List.eraseIdx_set_eq
  refine ⟨h.config_eq, h.now_eq, h.directory.attends hd (.refl _), ?_, ?_, h.answering_eq, h.unchanging⟩
  · rw [hothers]
    exact h.length_eq
  · rw [hothers]
    intro i c d hc hd'
    exact (h.connections i c d hc hd').attends hd (.refl _)

theorem AlikeWithout.withAnswering_out (h : AlikeWithout out full alone) {answering : Option Answering}
    (hchange : ∀ a ∈ answering, a.change = none) :
    AlikeWithout out (full.withAnswering out answering) alone where
  config_eq := h.config_eq
  now_eq := h.now_eq
  directory := h.directory
  length_eq := h.length_eq
  connections := h.connections
  answering_eq := by
    intro conn hconn
    show _ = Function.update full.answering out answering conn
    rw [Function.update_of_ne hconn]
    exact h.answering_eq conn hconn
  unchanging := by
    intro a ha
    have hupdate : Function.update full.answering out answering out = some a := ha
    rw [Function.update_self] at hupdate
    exact hchange a hupdate

/-- A request that makes no change. -/
theorem AlikeWithout.begin_out (h : AlikeWithout out full alone) (c : Connection) {text : List Char}
    (hchange : (full.directory.applyText text).change = none)
    (hstore : (full.directory.applyText text).store = full.directory.store) (rest : Bytes) :
    AlikeWithout out (full.begin out c text rest) alone := by
  have hsame : { full.directory with store := (full.directory.applyText text).store } =
      full.directory := by
    rw [hstore]
  have hnext : AlikeWithout out (full.withNext out
      ({ full.network.hub with
        directory := { full.directory with store := (full.directory.applyText text).store } },
      { c with inbox := rest })) alone := by
    refine h.withNext_out ?_
    show full.directory.Attends { full.directory with store := (full.directory.applyText text).store }
    rw [hsame]
    exact .refl _
  refine hnext.withAnswering_out ?_
  intro answering ha
  obtain rfl := Option.mem_some_iff.mp ha
  exact hchange

/-! ### Steps of the other connections -/

/-- The connections that are there in both. -/
theorem AlikeWithout.getElem?_eq_none (h : AlikeWithout out full alone) (hconn : conn ≠ out)
    (hc : full.network.connections[conn]? = none) :
    alone.network.connections[numberWithout out conn]? = none := by
  rw [← getElem?_eraseIdx_numberWithout hconn, List.getElem?_eq_none_iff] at hc
  rw [List.getElem?_eq_none_iff, h.length_eq]
  exact hc

theorem AlikeWithout.exists_get (h : AlikeWithout out full alone) (hconn : conn ≠ out) {c : Connection}
    (hc : full.network.connections[conn]? = some c) :
    ∃ d, alone.network.connections[numberWithout out conn]? = some d ∧
      Connection.Alike full.directory alone.directory c d := by
  rw [← getElem?_eraseIdx_numberWithout hconn] at hc
  have hlt : numberWithout out conn < alone.network.connections.length := by
    rw [h.length_eq]
    exact (List.getElem?_eq_some_iff.mp hc).1
  have hd := List.getElem?_eq_getElem hlt
  exact ⟨_, hd, h.connections _ _ _ hc hd⟩

/-- Another connection does something to itself, and to the directory no more than that receivers come or
go. -/
theorem AlikeWithout.withNext (h : AlikeWithout out full alone) (hconn : conn ≠ out)
    {next next' : Hub × Connection} (hd : full.directory.Attends next.1.directory)
    (hd' : alone.directory.Attends next'.1.directory)
    (hc : Connection.Alike full.directory alone.directory next.2 next'.2) :
    AlikeWithout out (full.withNext conn next) (alone.withNext (numberWithout out conn) next') := by
  have hothers : (full.withNext conn next).others out =
      (full.others out).set (numberWithout out conn) next.2 :=
    eraseIdx_set_numberWithout hconn _ _
  refine ⟨h.config_eq, h.now_eq, h.directory.attends hd hd', ?_, ?_, h.answering_eq, h.unchanging⟩
  · rw [hothers, List.length_set]
    exact List.length_set.trans h.length_eq
  · rw [hothers]
    intro i c d hget hget'
    refine Connection.Alike.attends ?_ hd hd'
    have hget'' : (alone.network.connections.set (numberWithout out conn) next'.2)[i]? = some d := hget'
    rw [List.getElem?_set] at hget hget''
    by_cases hi : numberWithout out conn = i
    · rw [if_pos hi, Option.ite_none_right_eq_some] at hget hget''
      obtain rfl := Option.some.inj hget.2
      obtain rfl := Option.some.inj hget''.2
      exact hc
    · rw [if_neg hi] at hget hget''
      exact h.connections i c d hget hget''

theorem AlikeWithout.withAnswering (h : AlikeWithout out full alone) (hconn : conn ≠ out)
    (answering : Option Answering) :
    AlikeWithout out (full.withAnswering conn answering)
      (alone.withAnswering (numberWithout out conn) answering) where
  config_eq := h.config_eq
  now_eq := h.now_eq
  directory := h.directory
  length_eq := h.length_eq
  connections := h.connections
  answering_eq := by
    intro other hother
    show Function.update alone.answering _ answering _ = Function.update full.answering conn answering other
    by_cases heq : other = conn
    · subst heq
      rw [Function.update_self, Function.update_self]
    · have hne : numberWithout out other ≠ numberWithout out conn :=
        fun hnumber => heq ((numberWithout_inj hother hconn).mp hnumber)
      rw [Function.update_of_ne heq, Function.update_of_ne hne]
      exact h.answering_eq other hother
  unchanging := by
    intro a ha
    have hupdate : Function.update full.answering conn answering out = some a := ha
    rw [Function.update_of_ne hconn.symm] at hupdate
    exact h.unchanging a hupdate

/-- The same table on both sides. -/
theorem AlikeWithout.withStore (h : AlikeWithout out full alone) (store : Store) :
    AlikeWithout out (full.withDirectory { full.directory with store })
      (alone.withDirectory { alone.directory with store }) where
  config_eq := h.config_eq
  now_eq := h.now_eq
  directory := h.directory.withStore store
  length_eq := h.length_eq
  connections := fun i c d hc hd => (h.connections i c d hc hd).withStore store
  answering_eq := h.answering_eq
  unchanging := h.unchanging

/-- Another connection begins to answer a request. -/
theorem AlikeWithout.begin (h : AlikeWithout out full alone) (hconn : conn ≠ out) {c d : Connection}
    (hc : Connection.Alike full.directory alone.directory c d) (text : List Char) (rest : Bytes) :
    AlikeWithout out (full.begin conn c text rest)
      (alone.begin (numberWithout out conn) d text rest) := by
  have hid : d.session.id = c.session.id := by
    obtain ⟨-⟩ := hc
    rfl
  have hstored := h.withStore (full.directory.applyText text).store
  have htaken : Connection.Alike
      { full.directory with store := (full.directory.applyText text).store }
      { alone.directory with store := (full.directory.applyText text).store }
      { c with inbox := rest } { d with inbox := rest } := (hc.take rest).withStore _
  have hnext := @AlikeWithout.withNext out conn _ _ hstored hconn (_, { c with inbox := rest })
    (_, { d with inbox := rest }) (.refl _) (.refl _) htaken
  have hanswering := hnext.withAnswering hconn (some ⟨c.session.id,
    (full.directory.applyText text).change, (full.directory.applyText text).response⟩)
  unfold BusyNetwork.begin
  rw [h.directory.applyText text, hid]
  exact hanswering

/-- A notice is published on both sides. -/
theorem AlikeWithout.send (h : AlikeWithout out full alone) (hfull : full.Manned)
    (halone : alone.Manned) (session : SessionId) (change : Change) :
    AlikeWithout out (full.withDirectory (full.directory.publish session change).2)
      (alone.withDirectory (alone.directory.publish session change).2) where
  config_eq := h.config_eq
  now_eq := h.now_eq
  directory := h.directory.publish session change
  length_eq := h.length_eq
  connections := by
    intro i c d hc hd
    have hget : (full.others out)[i]? = some c := hc
    have hget' : alone.network.connections[i]? = some d := hd
    have hcd := h.connections i c d hget hget'
    refine hcd.publish ?_ ?_ session change
    · exact hfull c (List.mem_of_mem_eraseIdx (List.mem_of_getElem? hget))
    · intro hsubscribed
      exact halone d (List.mem_of_getElem? hget') (hcd.isSubscribed_eq.trans hsubscribed)
  answering_eq := h.answering_eq
  unchanging := h.unchanging

/-! ### Connections that are made -/

theorem AlikeWithout.pass (h : AlikeWithout out full alone) (milliseconds : Nat) :
    AlikeWithout out { full with network := full.network.act (.pass milliseconds) }
      { alone with network := alone.network.act (.pass milliseconds) } where
  config_eq := h.config_eq
  now_eq := congrArg (· + milliseconds) h.now_eq
  directory := h.directory
  length_eq := h.length_eq
  connections := h.connections
  answering_eq := h.answering_eq
  unchanging := h.unchanging

/-- The connection that is taken out is made. -/
theorem AlikeWithout.connect_out (h : AlikeWithout out full alone)
    (hout : full.network.connections.length = out) (session : SessionId) :
    AlikeWithout out { full with network := full.network.act (.connect session) } alone := by
  have hothers : BusyNetwork.others { full with network := full.network.act (.connect session) } out =
      full.others out := by
    show (full.network.connections ++ [_]).eraseIdx out = full.network.connections.eraseIdx out
    rw [List.eraseIdx_append_of_length_le (by omega), hout, Nat.sub_self, List.eraseIdx_cons_zero,
      List.append_nil, List.eraseIdx_of_length_le (by omega)]
  refine ⟨h.config_eq, h.now_eq, h.directory, ?_, ?_, h.answering_eq, h.unchanging⟩
  · rw [hothers]
    exact h.length_eq
  · rw [hothers]
    exact h.connections

theorem AlikeWithout.connect (h : AlikeWithout out full alone)
    (hout : full.network.connections.length ≠ out) (session : SessionId) :
    AlikeWithout out { full with network := full.network.act (.connect session) }
      { alone with network := alone.network.act (.connect session) } := by
  have hothers : BusyNetwork.others { full with network := full.network.act (.connect session) } out =
      full.others out ++ [(Connection.start full.network.config session full.network.now
        full.network.hub).2] := by
    show (full.network.connections ++ [_]).eraseIdx out = full.network.connections.eraseIdx out ++ [_]
    by_cases hlt : out < full.network.connections.length
    · exact List.eraseIdx_append_of_lt_length hlt _
    · rw [List.eraseIdx_of_length_le (by rw [List.length_append, List.length_singleton]; omega),
        List.eraseIdx_of_length_le (by omega)]
      rfl
  refine ⟨h.config_eq, h.now_eq, h.directory, ?_, ?_, h.answering_eq, h.unchanging⟩
  · rw [hothers, List.length_append]
    show (alone.network.connections ++ [_]).length = _
    rw [List.length_append, h.length_eq]
    rfl
  · rw [hothers]
    intro i c d hc hd
    have hget : (alone.network.connections ++ [(Connection.start alone.network.config session
      alone.network.now alone.network.hub).2])[i]? = some d := hd
    rw [List.getElem?_append] at hc hget
    rw [h.length_eq] at hget
    split at hc
    · next hlt =>
      rw [if_pos hlt] at hget
      exact h.connections i c d hc hget
    · next hlt =>
      rw [List.getElem?_singleton, Option.ite_none_right_eq_some] at hc
      rw [if_neg hlt, List.getElem?_singleton, Option.ite_none_right_eq_some] at hget
      obtain rfl := Option.some.inj hc.2
      obtain rfl := Option.some.inj hget.2
      rw [h.config_eq, h.now_eq]
      exact Connection.alike_start _ _

/-! ### One step -/

theorem free_of_not_busy {b : BusyNetwork} {action : Action}
    (h : ¬ ((b.answering conn).isSome ∧ ¬ action.isOfClient)) :
    (b.answering conn).isNone ∨ action.isOfClient := by
  cases hanswering : b.answering conn with
  | none => exact .inl rfl
  | some answering =>
    rw [hanswering] at h
    exact .inr (by_contra fun hclient => h ⟨rfl, hclient⟩)

/-- An action on the connection that is taken out. -/
theorem AlikeWithout.act_out (h : AlikeWithout out full alone) {action : Action}
    (hconn : action.connection? = some out)
    (hquiet : ∀ text, full.asked? out (.act action) = some text →
      (full.directory.applyText text).change = none ∧
        (full.directory.applyText text).store = full.directory.store) :
    AlikeWithout out (full.step (.act action)) alone := by
  cases hc : full.network.connections[out]? with
  | none =>
    simp only [BusyNetwork.step, hconn, hc]
    exact h
  | some c =>
    by_cases hbusy : (full.answering out).isSome ∧ ¬ action.isOfClient
    · simp only [BusyNetwork.step, hconn, hc, if_pos hbusy]
      exact h
    cases hq : action.request? c with
    | none =>
      rw [step_act hconn hc (free_of_not_busy hbusy) hq]
      exact h.withNext_out (Connection.attends_effect hq _ _)
    | some next =>
      have hasked : full.asked? out (.act action) = some next.1 := by
        rw [asked?_eq, occurrence_of_get hconn hc (free_of_not_busy hbusy)]
        cases action with
        | advance other =>
          have hnext : c.request? = some next := hq
          exact (c.request?_workOccurrence).trans (congrArg (Option.map Prod.fst) hnext)
        | _ => cases hq
      obtain ⟨hchange, hstore⟩ := hquiet next.1 hasked
      simp only [BusyNetwork.step, hconn, hc, if_neg hbusy, hq]
      exact h.begin_out c hchange hstore next.2

/-- An action on another connection. -/
theorem AlikeWithout.act (h : AlikeWithout out full alone) {action : Action}
    (hconn : action.connection? = some conn) (hne : conn ≠ out) :
    AlikeWithout out (full.step (.act action))
      (alone.step (.act (action.renumbered (numberWithout out)))) := by
  have hconn' : (action.renumbered (numberWithout out)).connection? = some (numberWithout out conn) := by
    rw [Action.connection?_renumbered, hconn]
    rfl
  have hanswering := h.answering_eq conn hne
  cases hc : full.network.connections[conn]? with
  | none =>
    simp only [BusyNetwork.step, hconn, hc, hconn', h.getElem?_eq_none hne hc]
    exact h
  | some c =>
    obtain ⟨d, hd, hcd⟩ := h.exists_get hne hc
    have hrequest : (action.renumbered (numberWithout out)).request? d = action.request? c := by
      rw [Action.request?_renumbered]
      cases action with
      | advance other => exact hcd.request?_eq
      | _ => rfl
    by_cases hbusy : (full.answering conn).isSome ∧ ¬ action.isOfClient
    · simp only [BusyNetwork.step, hconn, hc, hconn', hd, hanswering, Action.isOfClient_renumbered,
        if_pos hbusy]
      exact h
    cases hq : action.request? c with
    | some next =>
      simp only [BusyNetwork.step, hconn, hc, hconn', hd, hanswering, Action.isOfClient_renumbered,
        if_neg hbusy, hrequest, hq]
      exact h.begin hne hcd next.1 next.2
    | none =>
      have hfree := free_of_not_busy hbusy
      have hfree' : (alone.answering (numberWithout out conn)).isNone ∨
          (action.renumbered (numberWithout out)).isOfClient := by
        rwa [hanswering, Action.isOfClient_renumbered]
      have hq' : action.request? d = none :=
        (Action.request?_renumbered action d).symm.trans (hrequest.trans hq)
      rw [step_act hconn hc hfree hq, step_act hconn' hd hfree' (hrequest.trans hq),
        Action.effect_renumbered, h.now_eq]
      exact h.withNext hne (Connection.attends_effect hq _ _) (Connection.attends_effect hq' _ _)
        (hcd.effect h.directory hq _)

theorem AlikeWithout.respond (h : AlikeWithout out full alone) (hne : conn ≠ out) :
    AlikeWithout out (full.step (.respond conn)) (alone.step (.respond (numberWithout out conn))) := by
  have hanswering := h.answering_eq conn hne
  simp only [BusyNetwork.step, hanswering]
  cases full.answering conn with
  | none => exact h
  | some answering =>
    obtain ⟨session, change?, response⟩ := answering
    cases change? with
    | some change => exact h
    | none =>
      cases hc : full.network.connections[conn]? with
      | none =>
        rw [h.getElem?_eq_none hne hc]
        exact h
      | some c =>
        obtain ⟨d, hd, hcd⟩ := h.exists_get hne hc
        rw [hd]
        exact (h.withNext hne (Connection.attends_respond _ c response)
          (Connection.attends_respond _ d response) (hcd.respond response)).withAnswering hne none

/-- The step in which another connection publishes its change. -/
theorem AlikeWithout.publish (h : AlikeWithout out full alone) (hfull : full.Manned)
    (halone : alone.Manned) (hne : conn ≠ out) :
    AlikeWithout out (full.step (.publish conn)) (alone.step (.publish (numberWithout out conn))) ∧
      alone.notice? (.publish (numberWithout out conn)) =
        (full.notice? (.publish conn)).map fun made => (numberWithout out made.1, made.2) := by
  have hanswering := h.answering_eq conn hne
  simp only [BusyNetwork.step, BusyNetwork.notice?, hanswering]
  cases full.answering conn with
  | none => exact ⟨h, rfl⟩
  | some answering =>
    obtain ⟨session, change?, response⟩ := answering
    cases change? with
    | none => exact ⟨h, rfl⟩
    | some change => exact ⟨(h.send hfull halone session change).withAnswering hne _, rfl⟩

/-- The connection that is taken out has nothing to publish. -/
theorem AlikeWithout.publish_out (h : AlikeWithout out full alone) :
    full.step (.publish out) = full ∧ full.notice? (.publish out) = none := by
  simp only [BusyNetwork.step, BusyNetwork.notice?]
  cases hanswering : full.answering out with
  | none => exact ⟨rfl, rfl⟩
  | some answering =>
    obtain ⟨session, change?, response⟩ := answering
    obtain rfl : change? = none := h.unchanging _ hanswering
    exact ⟨rfl, rfl⟩

theorem AlikeWithout.respond_out (h : AlikeWithout out full alone) :
    AlikeWithout out (full.step (.respond out)) alone := by
  simp only [BusyNetwork.step]
  split
  · refine (h.withNext_out (Connection.attends_respond _ _ _)).withAnswering_out ?_
    intro answering ha
    cases ha
  · exact h

theorem Step.without?_act {action : Action} (h : action.connection? = some conn) (out made : Nat) :
    (Step.act action).without? out made =
      if conn = out then none else some (.act (action.renumbered (numberWithout out))) := by
  cases action <;> simp_all [Step.without?, Action.connection?]

/-- **One step**, and what is left of it. -/
theorem AlikeWithout.step (h : AlikeWithout out full alone) (hfull : full.Manned)
    (halone : alone.Manned) {step : Step}
    (hquiet : ∀ text, full.asked? out step = some text →
      (full.directory.applyText text).change = none ∧
        (full.directory.applyText text).store = full.directory.store) :
    let left := (step.without? out full.network.connections.length).toList
    AlikeWithout out (full.step step) (alone.run left) ∧
      published alone left =
        (full.notice? step).toList.map fun made => (numberWithout out made.1, made.2) := by
  cases step with
  | publish other =>
    by_cases hout : other = out
    · subst hout
      obtain ⟨hstep, hnotice⟩ := h.publish_out
      simp only [Step.without?, if_true, hstep, hnotice]
      exact ⟨h, rfl⟩
    · obtain ⟨hstep, hnotice⟩ := h.publish hfull halone hout
      simp only [Step.without?, if_neg hout, Option.toList_some]
      refine ⟨hstep, ?_⟩
      show (alone.notice? _).toList ++ [] = _
      rw [hnotice, List.append_nil, Option.toList_map]
  | respond other =>
    by_cases hout : other = out
    · subst hout
      simp only [Step.without?, if_true]
      exact ⟨h.respond_out, rfl⟩
    · simp only [Step.without?, if_neg hout]
      exact ⟨h.respond hout, rfl⟩
  | act action =>
    cases hconn : action.connection? with
    | some other =>
      rw [Step.without?_act hconn]
      by_cases hout : other = out
      · subst hout
        rw [if_pos rfl]
        exact ⟨h.act_out hconn hquiet, rfl⟩
      · rw [if_neg hout]
        exact ⟨h.act hconn hout, rfl⟩
    | none =>
      cases action with
      | pass milliseconds => exact ⟨h.pass milliseconds, rfl⟩
      | connect session =>
        simp only [Step.without?]
        by_cases hout : full.network.connections.length = out
        · rw [if_pos hout]
          exact ⟨h.connect_out hout session, rfl⟩
        · rw [if_neg hout]
          exact ⟨h.connect hout session, rfl⟩
      | _ => cases hconn

end BusyNetwork

end ServiceDirectory
