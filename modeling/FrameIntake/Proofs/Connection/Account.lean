import FrameIntake.Proofs.Connection.Chronicle

/-!
What a chronicle comes to. All bytes that a handler has read are accounted for: they are in frames that
were sent on, in the frame on its way, in the buffer or in a notice (`Kept.accounted`).
-/

namespace FrameIntake.Chronicle

variable {p : Partitioner} {stream : String} {ch : Chronicle} {bytes : Bytes} {taken : List Frame}

/-- The messages of a handler, against the cut of the bytes that it has read. -/
structure Accounted (p : Partitioner) (stream : String) (ch : Chronicle) : Prop where
  /-- The first frames, each once, whole and with the stream's name. -/
  accepted : ∃ n, ch.accepted = ((p.cut ch.read).frames.take n).map (·.message stream)
  /-- The frame behind them is the only one that may be on its way. -/
  inFlight : ch.accepted ++ ch.inFlight.toList <+: (p.cut ch.read).frames.map (·.message stream)
  /-- All other bytes are in the buffer, until the peer has closed. -/
  buffer : ch.connection.phase ≠ .ended (.outcome .peerClosed) →
    ch.read = ((ch.accepted ++ ch.inFlight.toList).map Message.payload).flatten ++
      ch.connection.reader.decoder.buffer
  interrupted : ∀ outcome, ch.connection.phase = .ended (.outcome outcome) →
    outcome = .shutdown ∨ outcome = .fuseBurned →
    ch.read.length = total (·.payload.length) ch.accepted +
        total (·.payload.length) ch.inFlight.toList + ch.connection.reader.buffered ∧
      ch.log = ch.opened ::
        noticeOf ch.connection.reader.buffered (.bytesDiscarded ch.connection.peer · outcome)
  closed : ch.connection.phase = .ended (.outcome .peerClosed) →
    ch.accepted = (p.cut ch.read).frames.map (·.message stream) ∧
      ch.read.length = total (·.payload.length) ch.accepted + (p.cut ch.read).rest.length ∧
      ch.log = ch.opened ::
        noticeOf (p.cut ch.read).rest.length (.frameIncomplete ch.connection.peer)

theorem length_flatten_payloads (ms : List Message) :
    (ms.map Message.payload).flatten.length = total (·.payload.length) ms := by
  induction ms with
  | nil => rfl
  | cons m ms ih => simp [ih]

theorem map_payload (frames : List Frame) (stream : String) :
    (frames.map (·.message stream)).map Message.payload = frames.map Frame.data := by
  rw [List.map_map]
  rfl

theorem Stands.takes (h : ch.Stands p bytes taken)
    (open_ : ch.connection.phase ≠ .ended (.outcome .peerClosed)) :
    p.Takes bytes taken ch.connection.reader.decoder.buffer := by
  unfold Stands at h
  split at h
  · exact h.1.takes
  · exact h.1.takes
  · exact h.1.takes
  · contradiction
  · exact h.1

theorem Stands.closed (h : ch.Stands p bytes taken)
    (phase : ch.connection.phase = .ended (.outcome .peerClosed)) :
    ch.inFlight = none ∧ ∃ dropped, p.cut bytes = { frames := taken, rest := dropped } ∧
      ch.log = ch.opened :: noticeOf dropped.length (.frameIncomplete ch.connection.peer) := by
  unfold Stands at h
  rwa [phase] at h

theorem Stands.interrupted (h : ch.Stands p bytes taken) {outcome : Outcome}
    (phase : ch.connection.phase = .ended (.outcome outcome))
    (signal : outcome = .shutdown ∨ outcome = .fuseBurned) :
    ch.log = ch.opened ::
      noticeOf ch.connection.reader.buffered (.bytesDiscarded ch.connection.peer · outcome) := by
  unfold Stands at h
  rw [phase] at h
  rcases signal with rfl | rfl
  · exact h.2 .shutdown rfl (.inl rfl)
  · exact h.2 .fuseBurned rfl (.inr rfl)

theorem Stands.frames (h : ch.Stands p bytes taken) : taken <+: (p.cut bytes).frames := by
  by_cases hp : ch.connection.phase = .ended (.outcome .peerClosed)
  · obtain ⟨_, dropped, hc, _⟩ := h.closed hp
    simp [hc]
  · exact (h.takes hp).frames

theorem Kept.accounted (h : ch.Kept p stream bytes taken) : ch.Accounted p stream := by
  have hread := h.read_eq
  have hmessages : ch.accepted ++ ch.inFlight.toList <+: (p.cut ch.read).frames.map (·.message stream) := by
    rw [h.delivered, hread]
    exact h.stands.frames.map _
  have hpayloads : (ch.accepted ++ ch.inFlight.toList).map Message.payload = taken.map Frame.data := by
    rw [h.delivered, map_payload]
  have hbuffer (open_ : ch.connection.phase ≠ .ended (.outcome .peerClosed)) :
      ch.read = ((ch.accepted ++ ch.inFlight.toList).map Message.payload).flatten ++
        ch.connection.reader.decoder.buffer := by
    rw [hpayloads, hread]
    exact (h.stands.takes open_).flatten
  refine ⟨⟨ch.accepted.length, ?_⟩, hmessages, hbuffer, ?_, ?_⟩
  · rw [List.map_take]
    exact List.prefix_iff_eq_take.mp ((List.prefix_append _ _).trans hmessages)
  · intro outcome phase signal
    refine ⟨?_, h.stands.interrupted phase signal⟩
    have hopen : ch.connection.phase ≠ .ended (.outcome .peerClosed) := by
      rw [phase]
      rcases signal with rfl | rfl <;> simp
    have hlen := congrArg List.length (hbuffer hopen)
    rw [List.map_append, List.flatten_append, List.length_append, List.length_append,
      length_flatten_payloads, length_flatten_payloads] at hlen
    exact hlen
  · intro phase
    obtain ⟨hnone, dropped, hcut, hlog⟩ := h.stands.closed phase
    have hacc : ch.accepted = taken.map (·.message stream) := by
      rw [← h.delivered, hnone]
      simp
    rw [hread, hcut]
    refine ⟨hacc, ?_, hlog⟩
    have hlen := congrArg List.length (p.cut_flatten bytes)
    rw [hcut, List.length_append] at hlen
    rw [← length_flatten_payloads, hacc, map_payload]
    exact hlen.symm

end FrameIntake.Chronicle
