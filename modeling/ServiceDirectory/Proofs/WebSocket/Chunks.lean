import ServiceDirectory.Proofs.WebSocket.Grammar

/-!
# Frames out of chunks

The bytes of a client are read chunk by chunk, each time until the next frame is not complete
(`Frame.feed`).  `Frame.gather` puts together what was read after the chunks: the frames in their order,
the last stop, and everything that was not taken, be it bytes that were looked at or chunks that were not.

What is gathered is what one reading of all the bytes gives (`gather_feed`), so where the bytes were cut
makes no difference (`gather_feed_eq`).  The induction over the chunks rests on two facts: a reading that
needs more bytes has changed nothing, so what is pending always starts a frame that is not complete, and
no other reading changes when bytes are added.
-/

namespace ServiceDirectory.WebSocket.Frame

variable {limit : UInt64} {received pending more : Bytes} {chunks : List Bytes}

/-- What was read after each of the chunks, together: all frames, the last stop, and the bytes not taken
followed by the chunks not looked at. -/
def gather (pending : Bytes) (chunks : List Bytes) (batches : List Batch) : Batch where
  frames := batches.flatMap Batch.frames
  stop := (batches.getLast?.map Batch.stop).getD .incomplete
  rest := (batches.getLast?.map Batch.rest).getD pending ++ (chunks.drop batches.length).flatten

theorem gather_nil (pending : Bytes) (chunks : List Bytes) :
    gather pending chunks [] =
      { frames := [], stop := .incomplete, rest := pending ++ chunks.flatten } := rfl

theorem gather_singleton (pending chunk : Bytes) (chunks : List Bytes) (batch : Batch) :
    gather pending (chunk :: chunks) [batch] = { batch with rest := batch.rest ++ chunks.flatten } := by
  simp [gather]

/-- A batch that stopped for want of bytes is continued by those after it. -/
theorem gather_cons {batch : Batch} (hstop : batch.stop = .incomplete) (pending chunk : Bytes)
    (chunks : List Bytes) (batches : List Batch) :
    gather pending (chunk :: chunks) (batch :: batches) =
      { gather batch.rest chunks batches with
        frames := batch.frames ++ (gather batch.rest chunks batches).frames } := by
  cases batches with
  | nil =>
    rw [gather_singleton, gather_nil, hstop]
    simp
  | cons next batches =>
    obtain ⟨last, hlast⟩ : ∃ last, (next :: batches).getLast? = some last := ⟨_, List.getLast?_cons⟩
    simp only [gather, List.getLast?_cons_cons, hlast, List.flatMap_cons, List.length_cons,
      List.drop_succ_cons, Option.map_some, Option.getD_some]

/-! ## One buffer, and more bytes -/

/-- What is left for want of bytes is the start of a frame that is not complete. -/
theorem readMasked_rest_of_incomplete (h : (readAll limit received).stop = .incomplete) :
    readMasked limit (readAll limit received).rest = .incomplete := by
  fun_induction readAll limit received with
  | case1 received hr => exact hr
  | case2 received hr => cases h
  | case3 received cause rest hr => cases h
  | case4 received frame rest hr batch ih => exact ih h

/-- Reading goes on where it stopped for want of bytes. -/
theorem readAll_append_of_incomplete (hlimit : limit.toNat + 14 < 2 ^ 64)
    (h : (readAll limit received).stop = .incomplete) (more : Bytes) :
    readAll limit (received ++ more) =
      { readAll limit ((readAll limit received).rest ++ more) with
        frames := (readAll limit received).frames ++
          (readAll limit ((readAll limit received).rest ++ more)).frames } := by
  fun_induction readAll limit received with
  | case1 received hr => rfl
  | case2 received hr => cases h
  | case3 received cause rest hr => cases h
  | case4 received frame rest hr batch ih =>
    have hframe := readMasked_append more hlimit hr (by simp)
    rw [readAll_of_frame hframe, ih h]
    rfl

/-- Reading that stopped for any other reason has stopped for good. -/
theorem readAll_append_of_ne_incomplete (hlimit : limit.toNat + 14 < 2 ^ 64)
    (h : (readAll limit received).stop ≠ .incomplete) (more : Bytes) :
    readAll limit (received ++ more) =
      { readAll limit received with rest := (readAll limit received).rest ++ more } := by
  fun_induction readAll limit received with
  | case1 received hr => exact (h rfl).elim
  | case2 received hr => exact readAll_of_outOfBounds (readMasked_append more hlimit hr (by simp))
  | case3 received cause rest hr =>
    exact readAll_of_violation (readMasked_append more hlimit hr (by simp))
  | case4 received frame rest hr batch ih =>
    have hframe := readMasked_append more hlimit hr (by simp)
    rw [readAll_of_frame hframe, ih h]

/-! ## Chunk after chunk -/

theorem feed_cons_of_incomplete {chunk : Bytes}
    (h : (readAll limit (pending ++ chunk)).stop = .incomplete) :
    feed limit pending (chunk :: chunks) =
      readAll limit (pending ++ chunk) ::
        feed limit (readAll limit (pending ++ chunk)).rest chunks := by
  rw [feed, h]

theorem feed_cons_of_ne_incomplete {chunk : Bytes}
    (h : (readAll limit (pending ++ chunk)).stop ≠ .incomplete) :
    feed limit pending (chunk :: chunks) = [readAll limit (pending ++ chunk)] := by
  rw [feed]
  split
  next hstop => exact (h hstop).elim
  next => rfl

theorem length_feed_le (limit : UInt64) (pending : Bytes) (chunks : List Bytes) :
    (feed limit pending chunks).length ≤ chunks.length := by
  induction chunks generalizing pending with
  | nil => exact Nat.le_refl _
  | cons chunk chunks ih =>
    by_cases h : (readAll limit (pending ++ chunk)).stop = .incomplete
    · rw [feed_cons_of_incomplete h, List.length_cons, List.length_cons]
      exact Nat.succ_le_succ (ih _)
    · rw [feed_cons_of_ne_incomplete h, List.length_cons]
      exact Nat.succ_le_succ (Nat.zero_le _)

/-- **What is read chunk by chunk is what is read at once**, when the bytes pending are the start of a
frame that is not complete. -/
theorem gather_feed (hlimit : limit.toNat + 14 < 2 ^ 64)
    (hpending : readMasked limit pending = .incomplete) (chunks : List Bytes) :
    gather pending chunks (feed limit pending chunks) = readAll limit (pending ++ chunks.flatten) := by
  induction chunks generalizing pending with
  | nil =>
    rw [feed, gather_nil, List.flatten_nil, List.append_nil, readAll_of_incomplete hpending]
  | cons chunk chunks ih =>
    rw [List.flatten_cons, ← List.append_assoc]
    by_cases h : (readAll limit (pending ++ chunk)).stop = .incomplete
    · rw [feed_cons_of_incomplete h, gather_cons h, ih (readMasked_rest_of_incomplete h),
        readAll_append_of_incomplete hlimit h]
    · rw [feed_cons_of_ne_incomplete h, gather_singleton, readAll_append_of_ne_incomplete hlimit h]

/-! ## The work there is -/

theorem length_add_six_le {frame : Frame} {rest : Bytes} (hlimit : limit.toNat + 14 < 2 ^ 64)
    (h : readMasked limit received = .frame frame rest) : rest.length + 6 ≤ received.length := by
  obtain ⟨-, bytes, hspells, rfl⟩ := legal_of_readMasked hlimit h
  have hsix := hspells.six_le
  rw [List.length_append]
  omega

theorem length_frames_le (hlimit : limit.toNat + 14 < 2 ^ 64) (received : Bytes) :
    6 * (readAll limit received).frames.length + (readAll limit received).rest.length ≤
      received.length := by
  fun_induction readAll limit received with
  | case1 received hr => simp
  | case2 received hr => simp
  | case3 received cause rest hr => simpa using length_rest_of_violation hr
  | case4 received frame rest hr batch ih =>
    have hsix := length_add_six_le hlimit hr
    show 6 * (batch.frames.length + 1) + batch.rest.length ≤ received.length
    have hrest : 6 * batch.frames.length + batch.rest.length ≤ rest.length := ih
    omega

theorem le_of_stop_outOfBounds (h : (readAll limit received).stop = .outOfBounds) :
    2 ^ 63 ≤ limit.toNat + 14 := by
  fun_induction readAll limit received with
  | case1 received hr => cases h
  | case2 received hr => exact le_of_outOfBounds hr
  | case3 received cause rest hr => cases h
  | case4 received frame rest hr batch ih => exact ih h

/-- **How the bytes are cut into chunks makes no difference**, neither to the frames nor to the violation
that ends them nor to what is left.  The work is bounded: there is at most one batch for a chunk, each
ends with the one reading that gives no frame, and a frame takes six bytes or more.  No batch ends
with a frame that no buffer can hold unless the limit admits one. -/
theorem gather_feed_eq {limit : UInt64} (hlimit : limit.toNat + 14 < 2 ^ 64) (chunks : List Bytes) :
    let total := gather [] chunks (feed limit [] chunks)
    total = gather [] [chunks.flatten] (feed limit [] [chunks.flatten]) ∧
      (feed limit [] chunks).length ≤ chunks.length ∧
      6 * total.frames.length + total.rest.length ≤ chunks.flatten.length ∧
      (total.stop = .outOfBounds → 2 ^ 63 ≤ limit.toNat + 14) := by
  have hempty : readMasked limit [] = .incomplete := rfl
  have htotal : ∀ parts, gather [] parts (feed limit [] parts) = readAll limit parts.flatten :=
    fun parts => gather_feed hlimit hempty parts
  have hone : [chunks.flatten].flatten = chunks.flatten := List.flatten_singleton
  simp only [htotal, hone]
  exact ⟨trivial, length_feed_le limit [] chunks, length_frames_le hlimit _, le_of_stop_outOfBounds⟩

/-- A ping and a part of a text message, cut within the mask key and with an empty chunk. -/
theorem gather_feed_of_cut_ping :
    let parts : List Bytes := [[0x89, 0x81, 1, 2], [], [3, 4, 106, 0x81], [0x82]]
    (16 : UInt64).toNat + 14 < 2 ^ 64 ∧
      gather [] parts (feed 16 [] parts) =
        gather [] [parts.flatten] (feed 16 [] [parts.flatten]) := by
  intro parts
  have hlimit : (16 : UInt64).toNat + 14 < 2 ^ 64 := by decide
  exact ⟨hlimit, (gather_feed_eq hlimit parts).1⟩

end ServiceDirectory.WebSocket.Frame
