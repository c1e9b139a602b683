import ServiceDirectory.Proofs.Directory.Subscription

/-!
# Requests that leave no trace

The transcript of a run of requests holds for each request what it was answered and which notices it
published.  A request that fails, and one that asks for the listing, can be taken out of the run: the
transcript of the other requests and the directory that is left stay the same
(`transcript_of_remaining`).

All rests on what one request can come to (`Directory.comes_apply`): a listing or a failure, which leave
the table as it is and publish nothing, or a success, which makes one change.
-/

namespace ServiceDirectory

/-- The request asks for the listing. -/
def Request.isListing : Request → Bool
  | list => true
  | _ => false

/-- Send messages, one after the other. -/
def Channel.sendAll (channel : Channel α) (messages : List α) : Channel α :=
  messages.foldl (fun channel message => (channel.send message).2) channel

theorem Channel.sendAll_append (channel : Channel α) (first second : List α) :
    channel.sendAll (first ++ second) = (channel.sendAll first).sendAll second :=
  List.foldl_append

namespace Directory

/-! ## What a request comes to -/

/-- What applying a request comes to: the entries that it asks for, a failure, or a change. -/
inductive Comes (store : Store) : Request → Applied → Prop
  | listed : Comes store .list { response := .listing store.toList, store }
  | failed {request : Request} (notListing : request.isListing = false) (message : String) :
    Comes store request { response := .failure message, store }
  | changed {request : Request} (notListing : request.isListing = false) (change : Change)
    (next : Store) : Comes store request { response := .ok, change := some change, store := next }

/-- What the table refuses is a failure. -/
theorem comes_refused {store : Store} {request : Request} (h : request.isListing = false)
    (error : StoreError) : Comes store request { response := .refused error, store } := by
  cases error <;> exact .failed h _

theorem comes_apply (policy : Policy) (store : Store) (request : Request) :
    Comes store request (apply policy store request) := by
  cases request with
  | list => exact .listed
  | unrecognized name => exact .failed rfl _
  | register draft =>
    simp only [apply, register]
    split
    · exact .failed rfl _
    · split
      · exact comes_refused rfl _
      · exact .changed rfl _ _
  | unregister id =>
    simp only [apply, unregister]
    split
    · exact .failed rfl _
    · split
      · exact comes_refused rfl _
      · exact .changed rfl _ _
  | updateAddress id address =>
    simp only [apply, updateAddress]
    split
    · exact .failed rfl _
    · split
      · exact .failed rfl _
      · split
        · exact comes_refused rfl _
        · exact .changed rfl _ _

/-! ## Transcripts -/

/-- The notices that a call publishes. -/
def published (directory : Directory) (call : Call) : List Notice :=
  if directory.feed.isSome then (directory.changeOf call.2).toList.map (·.notice call.1) else []

/-- What is seen of a call from outside. -/
structure Exchange where
  call : Call
  response : Response
  notices : List Notice
  deriving DecidableEq, Repr

/-- The call was answered with success and did not ask for the listing. -/
def Exchange.Remains (lenient : Bool) (exchange : Exchange) : Prop :=
  exchange.response.success = true ∧ (Request.parse lenient exchange.call.2).isListing = false

instance (lenient : Bool) (exchange : Exchange) : Decidable (exchange.Remains lenient) := by
  unfold Exchange.Remains; infer_instance

/-- What is seen of a call that is handled next. -/
def exchange (directory : Directory) (call : Call) : Exchange :=
  { call
    response := (directory.handleText call.1 call.2).1
    notices := directory.published call }

theorem response_exchange (directory : Directory) (call : Call) :
    (directory.exchange call).response = (directory.handleText call.1 call.2).1 :=
  rfl

/-- What is seen of calls that are handled one after the other. -/
def transcript (directory : Directory) : List Call → List Exchange
  | [] => []
  | call :: calls =>
    directory.exchange call :: transcript (directory.handleText call.1 call.2).2 calls

theorem transcript_cons (directory : Directory) (call : Call) (calls : List Call) :
    directory.transcript (call :: calls) =
      directory.exchange call :: (directory.handleText call.1 call.2).2.transcript calls :=
  rfl

theorem afterCalls_cons (directory : Directory) (call : Call) (calls : List Call) :
    directory.afterCalls (call :: calls) =
      (directory.handleText call.1 call.2).2.afterCalls calls :=
  rfl

variable {directory : Directory}

theorem handleText_eq (directory : Directory) (session : SessionId) (text : String) :
    let applied := apply directory.policy directory.store (Request.parse directory.lenient text)
    directory.handleText session text =
      (applied.response,
        { directory with
          store := applied.store
          feed := directory.feed.map (·.sendAll (directory.published (session, text))) }) := by
  obtain ⟨policy, store, feed, lenient⟩ := directory
  simp only [handleText, handle, published, changeOf]
  generalize apply policy store _ = applied
  cases applied.change with
  | none => cases feed <;> rfl
  | some change => cases feed <;> rfl

theorem lenient_handleText (directory : Directory) (session : SessionId) (text : String) :
    (directory.handleText session text).2.lenient = directory.lenient := by
  rw [handleText_eq]

theorem feed_handleText (directory : Directory) (call : Call) :
    (directory.handleText call.1 call.2).2.feed =
      directory.feed.map (·.sendAll (directory.published call)) := by
  rw [handleText_eq]

theorem isSome_feed_handleText (directory : Directory) (call : Call) :
    (directory.handleText call.1 call.2).2.feed.isSome = directory.feed.isSome := by
  rw [feed_handleText]
  exact Option.isSome_map

/-- **One request that does not remain**: it publishes nothing and leaves the directory as it is. -/
theorem traceless_of_not_remains {call : Call}
    (h : ¬ (directory.exchange call).Remains directory.lenient) :
    directory.published call = [] ∧ (directory.handleText call.1 call.2).2 = directory := by
  have hcomes := comes_apply directory.policy directory.store
    (Request.parse directory.lenient call.2)
  have hhandled := handleText_eq directory call.1 call.2
  simp only [Exchange.Remains, exchange, hhandled] at h
  rw [hhandled]
  simp only [published, changeOf]
  generalize Request.parse directory.lenient call.2 = request at h hcomes ⊢
  generalize apply directory.policy directory.store request = applied at h hcomes ⊢
  cases hcomes with
  | listed => cases hf : directory.feed <;> simp [Channel.sendAll, ← hf]
  | failed _ message => cases hf : directory.feed <;> simp [Channel.sendAll, ← hf]
  | changed notListing change next => exact absurd ⟨rfl, notListing⟩ h

/-- **One request that remains**: it makes one change, which it publishes where notices are on. -/
theorem published_of_remains {call : Call}
    (h : (directory.exchange call).Remains directory.lenient) :
    ∃ change : Change, directory.published call =
      if directory.feed.isSome then [change.notice call.1] else [] := by
  have hcomes := comes_apply directory.policy directory.store
    (Request.parse directory.lenient call.2)
  simp only [Exchange.Remains, exchange, handleText_eq] at h
  simp only [published, changeOf]
  generalize Request.parse directory.lenient call.2 = request at h hcomes ⊢
  generalize apply directory.policy directory.store request = applied at h hcomes ⊢
  obtain ⟨hsuccess, hlisting⟩ := h
  cases hcomes with
  | listed => cases hlisting
  | failed => cases hsuccess
  | changed _ change next => exact ⟨change, rfl⟩

/-! ## Runs -/

/-- The calls that were answered with success and did not ask for the listing, with what was seen of
them. -/
def remaining (directory : Directory) (calls : List Call) : List Exchange :=
  (directory.transcript calls).filter fun exchange => exchange.Remains directory.lenient

theorem remaining_cons (directory : Directory) (call : Call) (calls : List Call) :
    let rest := (directory.handleText call.1 call.2).2.remaining calls
    directory.remaining (call :: calls) =
      if (directory.exchange call).Remains directory.lenient then directory.exchange call :: rest
      else rest := by
  simp only [remaining, transcript_cons, List.filter_cons, lenient_handleText, decide_eq_true_eq]

/-- **The run**: without the calls that do not remain, what is seen of the others is the same, and so is
the directory that is left. -/
theorem run_remaining (directory : Directory) (calls : List Call) :
    let kept := (directory.remaining calls).map (·.call)
    directory.transcript kept = directory.remaining calls ∧
      directory.afterCalls kept = directory.afterCalls calls := by
  induction calls generalizing directory with
  | nil => exact ⟨rfl, rfl⟩
  | cons call calls ih =>
    obtain ⟨htranscript, hafter⟩ := ih (directory.handleText call.1 call.2).2
    rw [remaining_cons]
    by_cases h : (directory.exchange call).Remains directory.lenient
    · rw [if_pos h, List.map_cons]
      exact ⟨congrArg (directory.exchange call :: ·) htranscript, hafter⟩
    · -- the call left the directory as it was, so the others were handled by the same one
      rw [if_neg h, afterCalls_cons]
      rw [(traceless_of_not_remains h).2] at htranscript hafter ⊢
      exact ⟨htranscript, hafter⟩

/-- The calls that do not remain published nothing. -/
theorem flatMap_notices_remaining (directory : Directory) (calls : List Call) :
    (directory.remaining calls).flatMap (·.notices) =
      (directory.transcript calls).flatMap (·.notices) := by
  induction calls generalizing directory with
  | nil => rfl
  | cons call calls ih =>
    rw [remaining_cons, transcript_cons, List.flatMap_cons, ← ih]
    split
    · rfl
    · next h =>
      have hnone : (directory.exchange call).notices = [] := (traceless_of_not_remains h).1
      rw [hnone, List.nil_append]

/-- The notices of a transcript are what is sent on the channel. -/
theorem feed_afterCalls (directory : Directory) (calls : List Call) :
    (directory.afterCalls calls).feed =
      directory.feed.map (·.sendAll ((directory.transcript calls).flatMap (·.notices))) := by
  induction calls generalizing directory with
  | nil => exact Option.map_id'.symm
  | cons call calls ih =>
    rw [afterCalls_cons, ih, feed_handleText, Option.map_map]
    refine congrArg (directory.feed.map ·) ?_
    funext channel
    rw [Function.comp_apply, ← Channel.sendAll_append]
    rfl

theorem published_of_mem_remaining (directory : Directory) {calls : List Call}
    {exchange : Exchange} (h : exchange ∈ directory.remaining calls) :
    ∃ change : Change, exchange.notices =
      if directory.feed.isSome then [change.notice exchange.call.1] else [] := by
  induction calls generalizing directory with
  | nil => exact nomatch h
  | cons call calls ih =>
    rw [remaining_cons] at h
    split at h
    · next hremains =>
      rcases List.mem_cons.mp h with rfl | h
      · exact published_of_remains hremains
      · have hrest := ih _ h
        rwa [isSome_feed_handleText] at hrest
    · have hrest := ih _ h
      rwa [isSome_feed_handleText] at hrest

end Directory

/-- **Requests that fail leave no trace**, and neither do those that ask for the listing.  Whatever the
directory and whoever sends the requests: handled without them, the other requests are answered as
before and publish the same notices; the directory that is left is the same, with its table, the number
of the next registration and its channel; and nothing else was sent on the channel.  Each of the other
requests publishes, where notices are on, one notice under its own session. -/
theorem transcript_of_remaining (directory : Directory) (calls : List Directory.Call) :
    let transcript := directory.transcript calls
    let remaining := transcript.filter fun exchange => exchange.Remains directory.lenient
    let kept := remaining.map (·.call)
    directory.transcript kept = remaining ∧
      directory.afterCalls kept = directory.afterCalls calls ∧
      remaining.flatMap (·.notices) = transcript.flatMap (·.notices) ∧
      (directory.afterCalls calls).feed =
        directory.feed.map (·.sendAll (transcript.flatMap (·.notices))) ∧
      ∀ exchange ∈ remaining, ∃ change : Change, exchange.notices =
        if directory.feed.isSome then [change.notice exchange.call.1] else [] := by
  intro transcript remaining kept
  obtain ⟨htranscript, hafter⟩ := directory.run_remaining calls
  exact ⟨htranscript, hafter, directory.flatMap_notices_remaining calls,
    directory.feed_afterCalls calls, fun _ h => directory.published_of_mem_remaining h⟩

end ServiceDirectory
