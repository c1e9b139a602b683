import ServiceDirectory.Proofs.Directory.Transcript
import ServiceDirectory.Proofs.Network.Removal

/-!
# A client that changes nothing is invisible

Clients may send anything and be gone at any moment, and the steps of their connections interleave in any
way.  If the only requests of a connection that succeed are listings (`BusyNetwork.OnlyLists`), then without
this connection nothing else is different: the other connections write the same and end in the same way,
the same notices are published, and the table is the same (`BusyNetwork.invisible_run`).
-/

namespace ServiceDirectory

/-- How a connection ended, if it has. -/
def Connection.result? (c : Connection) : Option (Except Failure Unit) :=
  match c.stage with
  | .ended result => some result
  | _ => none

theorem Connection.Alike.seen_eq {left right : Directory} {c d : Connection}
    (h : Connection.Alike left right c d) :
    (d.session, d.outlet, d.result?) = (c.session, c.outlet, c.result?) := by
  obtain ⟨config, session, stage, inbox, outlet⟩ := c
  obtain ⟨hstage⟩ := h
  cases hstage <;> rfl

namespace BusyNetwork

variable {out : Nat} {config : Config} {store : Store} {steps : List Step}

/-! ## Runs -/

/-- A request that succeeds only if it is a listing makes no change. -/
theorem unchanging_of_listing {directory : Directory} {text : List Char}
    (h : (directory.applyText text).response.success = true →
      (Request.parse directory.lenient (String.ofList text)).isListing = true) :
    (directory.applyText text).change = none ∧
      (directory.applyText text).store = directory.store := by
  have hcomes := Directory.comes_apply directory.policy directory.store
    (Request.parse directory.lenient (String.ofList text))
  unfold Directory.applyText at h ⊢
  revert h
  generalize Directory.apply directory.policy directory.store _ = applied at hcomes ⊢
  generalize Request.parse directory.lenient _ = request at hcomes ⊢
  intro h
  cases hcomes with
  | listed => exact ⟨rfl, rfl⟩
  | failed _ _ => exact ⟨rfl, rfl⟩
  | changed hlisting change next =>
    have hyes := h rfl
    rw [hlisting] at hyes
    cases hyes

/-- The only requests of a connection that succeed are listings. -/
def OnlyLists (config : Config) (handed : List Handover) : Prop :=
  ∀ made ∈ handed, made.response.success = true →
    (Request.parse config.lenientQuotes (String.ofList made.text)).isListing = true

instance (config : Config) (handed : List Handover) : Decidable (OnlyLists config handed) :=
  inferInstanceAs (Decidable (∀ made ∈ handed, made.response.success = true →
    (Request.parse config.lenientQuotes (String.ofList made.text)).isListing = true))

theorem alikeWithout_start (out : Nat) (config : Config) (store : Store) :
    AlikeWithout out (ofNetwork (Network.start config store)) (ofNetwork (Network.start config store)) where
  config_eq := rfl
  now_eq := rfl
  directory := ⟨rfl, rfl, rfl, rfl⟩
  length_eq := rfl
  connections := fun _ _ _ hc => nomatch hc
  answering_eq := fun _ _ => rfl
  unchanging := fun _ ha => nomatch ha

/-- **Every run.** -/
theorem alikeWithout_run (hlists : OnlyLists config
      (BusyNetwork.handed out (ofNetwork (Network.start config store)) steps)) :
    let start := ofNetwork (Network.start config store)
    AlikeWithout out (start.run steps) (start.run (without out start steps)) ∧
      published start (without out start steps) =
        (published start steps).map fun made => (numberWithout out made.1, made.2) := by
  intro start
  induction steps using List.reverseRecOn with
  | nil => exact ⟨alikeWithout_start out config store, rfl⟩
  | append_singleton steps step ih =>
    have hhanded : BusyNetwork.handed out start (steps ++ [step]) =
        BusyNetwork.handed out start steps ++ ((start.run steps).asked? out step).toList.map fun text =>
          { text, response := ((start.run steps).directory.applyText text).response } :=
      history_concat _ _ _ _
    obtain ⟨halike, hpublished⟩ := ih fun made hmade =>
      hlists made (hhanded ▸ List.mem_append_left _ hmade)
    have hquiet : ∀ text, (start.run steps).asked? out step = some text →
        ((start.run steps).directory.applyText text).change = none ∧
          ((start.run steps).directory.applyText text).store = (start.run steps).directory.store := by
      intro text hasked
      refine unchanging_of_listing fun hsuccess => ?_
      rw [lenient_run]
      refine hlists { text, response := ((start.run steps).directory.applyText text).response } ?_
        hsuccess
      rw [hhanded, hasked]
      exact List.mem_append_right _ (List.mem_singleton_self _)
    have hwithout : without out start (steps ++ [step]) = without out start steps ++
        (step.without? out (start.run steps).network.connections.length).toList :=
      history_concat _ _ _ _
    obtain ⟨hstep, hnotice⟩ := halike.step (manned_run config store steps)
      (manned_run config store (without out start steps)) hquiet
    rw [run_concat, hwithout, run_append]
    refine ⟨hstep, ?_⟩
    have hfull : published start (steps ++ [step]) =
        published start steps ++ ((start.run steps).notice? step).toList := history_concat _ _ _ _
    rw [hfull, List.map_append, ← hpublished, ← hnotice]
    exact history_append _ _ _ _

/-- **A client that changes nothing is invisible to the others.**  Connections share a directory, and their
steps interleave in any way.  If the only requests of a connection that succeed are listings, then without
it the sessions of the other connections, what goes through to their clients and how they end, the table,
and the notices that are published are the same. -/
theorem invisible_run (hlists : OnlyLists config
      (BusyNetwork.handed out (ofNetwork (Network.start config store)) steps)) :
    let start := ofNetwork (Network.start config store)
    let alone := without out start steps
    (start.run alone).network.connections.map (fun c => (c.session, c.outlet, c.result?)) =
        ((start.run steps).others out).map (fun c => (c.session, c.outlet, c.result?)) ∧
      (start.run alone).directory.store = (start.run steps).directory.store ∧
      published start alone =
        (published start steps).map fun made => (numberWithout out made.1, made.2) := by
  intro start alone
  obtain ⟨halike, hpublished⟩ := alikeWithout_run hlists
  refine ⟨?_, halike.directory.store_eq, hpublished⟩
  refine List.ext_getElem ?_ ?_
  · rw [List.length_map, List.length_map]
    exact halike.length_eq
  · intro i hi hi'
    rw [List.length_map] at hi hi'
    rw [List.getElem_map, List.getElem_map]
    exact (halike.connections i _ _ (List.getElem?_eq_getElem hi')
      (List.getElem?_eq_getElem hi)).seen_eq

/-- Two clients are upgraded, and the first asks for the listing and then breaks a rule. -/
theorem invisible_of_listing :
    let config : Config := { notices := true }
    let request := Utf8.encode ("GET / HTTP/1.1\r\nUpgrade: websocket\r\nConnection: Upgrade\r\n" ++
      "Sec-WebSocket-Key: dGhlIHNhbXBsZSBub25jZQ==\r\nSec-WebSocket-Version: 13\r\n\r\n").toList
    let listing := [0x81, 0x92, 0, 0, 0, 0] ++ Utf8.encode "\x7b\"request\":\"list\"\x7d".toList
    let steps := [.act (.connect 1), .act (.connect 2), .act (.receive 0 request), .act (.advance 0),
      .act (.receive 1 request), .act (.advance 1),
      .act (.receive 0 (listing ++ [0x82, 0x80, 0, 0, 0, 0])), .act (.advance 0), .respond 0,
      .act (.advance 0)]
    OnlyLists config (BusyNetwork.handed 0 (ofNetwork (Network.start config)) steps) ∧
      BusyNetwork.handed 0 (ofNetwork (Network.start config)) steps ≠ [] ∧
      ((ofNetwork (Network.start config)).run
          (without 0 (ofNetwork (Network.start config)) steps)).network.connections.map
            (fun c => (c.session, c.outlet, c.result?)) =
        (((ofNetwork (Network.start config)).run steps).others 0).map
          (fun c => (c.session, c.outlet, c.result?)) ∧
      ((ofNetwork (Network.start config)).run
          (without 0 (ofNetwork (Network.start config)) steps)).directory.store =
        ((ofNetwork (Network.start config)).run steps).directory.store ∧
      published (ofNetwork (Network.start config)) (without 0 (ofNetwork (Network.start config)) steps) =
        (published (ofNetwork (Network.start config)) steps).map
          fun made => (numberWithout 0 made.1, made.2) := by
  intro config request listing steps
  have hfacts : OnlyLists config (BusyNetwork.handed 0 (ofNetwork (Network.start config)) steps) ∧
      BusyNetwork.handed 0 (ofNetwork (Network.start config)) steps ≠ [] := by
    decide +kernel
  obtain ⟨hlists, hasked⟩ := hfacts
  exact ⟨hlists, hasked, invisible_run hlists⟩

end BusyNetwork

end ServiceDirectory
