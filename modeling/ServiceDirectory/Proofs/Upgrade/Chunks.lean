import ServiceDirectory.Proofs.Upgrade.Requirements

/-!
# Handshakes out of chunks

The bytes of a client come in chunks, and after each of them the handshake works on the bytes that it has
not taken (`Handshake.feed`).  All these calls together come to what one call makes of all the bytes
(`Handshake.feed_eq`): nothing comes of any of them, or one has the outcome of the one call and the others
are silent (`Handshake.idle`), they change nothing.

The induction over the chunks rests on two facts: a call of which nothing comes has changed nothing, so what
is pending is a head that is not judged yet, and later bytes do not change an outcome.
-/

namespace ServiceDirectory.Upgrade.Handshake

variable {h : Handshake} {limit : Nat} {outcome : Outcome} {pending received rest : Bytes}
  {chunks : List Bytes}

/-- What came of a call, the handshake after it and the bytes not taken. -/
abbrev Call := Option Outcome × Handshake × Bytes

/-- The calls made when chunk after chunk is added to the bytes not taken. -/
def feed (h : Handshake) (pending : Bytes) : List Bytes → List Call
  | [] => []
  | chunk :: chunks =>
    let call := h.process (pending ++ chunk)
    call :: feed call.2.1 call.2.2 chunks

/-- Silent calls: nothing comes of them, the handshake stays as it is and the chunks pile up. -/
def idle (h : Handshake) (pending : Bytes) : List Bytes → List Call
  | [] => []
  | chunk :: chunks => (none, h, pending ++ chunk) :: idle h (pending ++ chunk) chunks

theorem outcome_of_mem_idle {call : Call} (hc : call ∈ idle h pending chunks) : call.1 = none := by
  induction chunks generalizing pending with
  | nil => cases hc
  | cons chunk chunks ih =>
    rcases List.mem_cons.mp hc with rfl | hc
    · rfl
    · exact ih hc

/-! ## One call -/

theorem process_of_outcome?_none (ho : outcome? h.limit received = none) :
    h.process received = (none, h, received) := by
  unfold process
  split
  · rfl
  · rw [ho]

theorem process_of_outcome? (hd : h.isDone = false)
    (ho : outcome? h.limit received = some (outcome, rest)) :
    h.process received = (some outcome, h.finish outcome, rest) := by
  simp only [process, hd, Bool.false_eq_true, if_false, ho]

theorem isDone_finish (h : Handshake) (outcome : Outcome) : (h.finish outcome).isDone = true := by
  cases outcome <;> rfl

/-- Bytes that are not judged yet were not judged either when there were fewer of them. -/
theorem outcome?_none_of_append {more : Bytes} (ho : outcome? limit (received ++ more) = none) :
    outcome? limit received = none := by
  cases hr : outcome? limit received with
  | none => rfl
  | some found => exact nomatch ho.symm.trans (outcome?_append more hr)

/-- What is taken of a head that is accepted is the head. -/
theorem isHead_of_accepted {value : String}
    (ho : outcome? limit received = some (.accepted value, rest)) :
    ∃ head, IsHead head ∧ received = head ++ rest := by
  unfold outcome? at ho
  split at ho
  · split at ho <;> cases ho
  next length hlength =>
    obtain ⟨head, after, rfl, hhead, rfl⟩ := isHead_of_headLengthFrom hlength
    rw [Nat.zero_add] at ho
    split at ho
    · cases ho
    · obtain ⟨-, rfl⟩ := Prod.mk.inj (Option.some.inj ho)
      exact ⟨head, hhead, by rw [List.drop_left]⟩

/-! ## Chunk after chunk -/

theorem feed_of_isDone (hd : h.isDone = true) (pending : Bytes) (chunks : List Bytes) :
    feed h pending chunks = idle h pending chunks := by
  induction chunks generalizing pending with
  | nil => rfl
  | cons chunk chunks ih => rw [feed, process_of_isDone hd, idle, ih]

/-- **Nothing comes of any call** when nothing comes of the one on all the bytes. -/
theorem feed_of_outcome?_none (ho : outcome? h.limit (pending ++ chunks.flatten) = none) :
    feed h pending chunks = idle h pending chunks := by
  induction chunks generalizing pending with
  | nil => rfl
  | cons chunk chunks ih =>
    rw [List.flatten_cons, ← List.append_assoc] at ho
    rw [feed, process_of_outcome?_none (outcome?_none_of_append ho), idle, ih ho]

/-- **One call has the outcome** of the one on all the bytes, when what is pending is not judged yet. -/
theorem feed_of_outcome? (hd : h.isDone = false) (hpending : outcome? h.limit pending = none)
    (ho : outcome? h.limit (pending ++ chunks.flatten) = some (outcome, rest)) :
    ∃ first chunk later kept, chunks = first ++ chunk :: later ∧ kept ++ later.flatten = rest ∧
      feed h pending chunks = idle h pending first ++
        (some outcome, h.finish outcome, kept) :: idle (h.finish outcome) kept later := by
  induction chunks generalizing pending with
  | nil =>
    rw [List.flatten_nil, List.append_nil, hpending] at ho
    cases ho
  | cons chunk chunks ih =>
    rw [List.flatten_cons, ← List.append_assoc] at ho
    cases hc : outcome? h.limit (pending ++ chunk) with
    | none =>
      obtain ⟨first, decisive, later, kept, rfl, hkept, hfeed⟩ := ih hc ho
      refine ⟨chunk :: first, decisive, later, kept, rfl, hkept, ?_⟩
      rw [feed, process_of_outcome?_none hc, hfeed]
      rfl
    | some found =>
      obtain ⟨judged, kept⟩ := found
      -- the chunks that are still to come change nothing in this
      obtain ⟨rfl, rfl⟩ := Prod.mk.inj (Option.some.inj ((outcome?_append _ hc).symm.trans ho))
      refine ⟨[], chunk, chunks, kept, rfl, rfl, ?_⟩
      rw [feed, process_of_outcome? hd hc, feed_of_isDone (isDone_finish h judged)]
      rfl

/-- **How the bytes are cut into chunks makes no difference to a handshake.**  There is an outcome when one
call on all the bytes has one, and it is the same.  Then one of the calls has it, leaves the handshake as
the one call does, and keeps bytes which make up, with the chunks not added yet, what the one call leaves:
after an upgrade this is what follows the first head.  The calls before and after it are silent, and so is
every later one. -/
theorem feed_eq (limit : Nat) (chunks : List Bytes) :
    let fresh : Handshake := { limit }
    let calls := fresh.feed [] chunks
    let whole := fresh.process chunks.flatten
    calls.filterMap (·.1) = whole.1.toList ∧
      (whole.1 = none ↔ ∀ call ∈ calls, call.1 = none) ∧
      (whole.1 = none → calls = fresh.idle [] chunks) ∧
      ∀ outcome after rest, whole = (some outcome, after, rest) →
        (∃ first chunk later kept, chunks = first ++ chunk :: later ∧ kept ++ later.flatten = rest ∧
          calls = fresh.idle [] first ++ (some outcome, after, kept) :: after.idle kept later) ∧
        (∀ received, after.process received = (none, after, received)) ∧
        ∀ value, outcome = .accepted value → ∃ head, IsHead head ∧ chunks.flatten = head ++ rest := by
  intro fresh calls whole
  have hd : fresh.isDone = false := rfl
  have hempty : outcome? fresh.limit [] = none := rfl
  have hsilent : ∀ {h : Handshake} {pending : Bytes} {chunks : List Bytes},
      (idle h pending chunks).filterMap (·.1) = [] :=
    List.filterMap_eq_nil_iff.mpr fun call hc => outcome_of_mem_idle hc
  cases ho : outcome? fresh.limit chunks.flatten with
  | none =>
    have hwhole : whole = (none, fresh, chunks.flatten) := process_of_outcome?_none ho
    have hcalls : calls = fresh.idle [] chunks := feed_of_outcome?_none ho
    rw [hwhole, hcalls]
    exact ⟨hsilent, iff_of_true rfl fun call hc => outcome_of_mem_idle hc, fun _ => rfl,
      fun outcome after rest hw => nomatch congrArg Prod.fst hw⟩
  | some found =>
    obtain ⟨outcome, rest⟩ := found
    have hwhole : whole = (some outcome, fresh.finish outcome, rest) := process_of_outcome? hd ho
    obtain ⟨first, chunk, later, kept, hchunks, hkept, hcalls⟩ :=
      feed_of_outcome? hd hempty ho
    have hcalls : calls = _ := hcalls
    rw [hwhole, hcalls]
    refine ⟨?_, iff_of_false nofun ?_, nofun, ?_⟩
    · rw [List.filterMap_append, hsilent, List.filterMap_cons, hsilent]
      rfl
    · intro hall
      exact nomatch hall (some outcome, fresh.finish outcome, kept)
        (List.mem_append_right _ List.mem_cons_self)
    · rintro _ _ _ ⟨⟩
      refine ⟨⟨first, chunk, later, kept, hchunks, hkept, rfl⟩,
        process_of_isDone (isDone_finish fresh outcome), ?_⟩
      rintro value rfl
      exact isHead_of_accepted ho

/-- A head as large as the limit, cut in the middle of its end, and a byte behind it. -/
example :
    (feed { limit := 5 } [] [[65, 13, 10], [], [13, 10, 7], [8]]).map (fun call => (call.1, call.2.2)) =
      [(none, [65, 13, 10]), (none, [65, 13, 10]),
        (some (.refused (.malformed .badRequestLine)), [7]), (none, [7, 8])] := by
  decide +kernel

end ServiceDirectory.Upgrade.Handshake
