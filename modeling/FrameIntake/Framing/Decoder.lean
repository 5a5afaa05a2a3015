import FrameIntake.Framing.Extract

/-!
A decoder: the bytes of a stream that no frame has taken yet, and how far they were searched.
-/

namespace FrameIntake

/-- A whole frame, and where its payload lies in it. -/
structure Frame where
  data : Bytes
  payloadStart : Nat
  payloadStop : Nat
  deriving DecidableEq, Repr

def Frame.payload (f : Frame) : Bytes :=
  (f.data.take f.payloadStop).drop f.payloadStart

structure Decoder where
  partitioner : Partitioner
  buffer : Bytes := []
  scanFrom : Nat := 0
  deriving DecidableEq, Repr

/-- What one attempt to take a frame came to. -/
inductive Decoded
  | frame (frame : Frame)
  | incomplete
  | malformed (error : FramingError)
  /-- The stream ended inside a frame, of which `bytes` bytes are dropped. -/
  | trailing (bytes : Nat)
  deriving DecidableEq, Repr

namespace Decoder

def append (d : Decoder) (bytes : Bytes) : Decoder :=
  { d with buffer := d.buffer ++ bytes }

/-- Takes the frame at the front of the buffer. A malformed buffer stays as it is. -/
def decode (d : Decoder) : Decoded × Decoder :=
  match d.partitioner.extract d.buffer d.scanFrom with
  | .found b =>
    (.frame ⟨d.buffer.take b.stop, b.payloadStart, b.payloadStop⟩,
      { d with buffer := d.buffer.drop b.stop, scanFrom := 0 })
  | .needMore resumeAt => (.incomplete, { d with scanFrom := resumeAt })
  | .malformed e => (.malformed e, d)

/-- As `decode`, for a stream that has ended: what cannot become a frame any more is dropped. -/
def decodeEnd (d : Decoder) : Decoded × Decoder :=
  match d.decode with
  | (.incomplete, d') =>
    if d'.buffer.isEmpty then (.incomplete, d')
    else (.trailing d'.buffer.length, { d' with buffer := [], scanFrom := 0 })
  | other => other

theorem decode_frame {d d' : Decoder} {f : Frame} (h : d.decode = (.frame f, d')) :
    f.data ++ d'.buffer = d.buffer ∧ f.data ≠ [] ∧ d'.scanFrom = 0 := by
  unfold decode at h
  split at h
  · rename_i b hb
    obtain ⟨hp, hl, _⟩ := Partitioner.extract_found hb
    simp only [Prod.mk.injEq, Decoded.frame.injEq] at h
    obtain ⟨rfl, rfl⟩ := h
    refine ⟨List.take_append_drop _ _, ?_, rfl⟩
    intro hn
    have := congrArg List.length hn
    simp only [List.length_take, List.length_nil] at this
    omega
  · simp at h
  · simp at h

theorem decode_incomplete {d d' : Decoder} (h : d.decode = (.incomplete, d')) :
    d'.buffer = d.buffer := by
  unfold decode at h
  split at h <;> simp at h
  subst h
  rfl

theorem decode_malformed {d d' : Decoder} {e : FramingError} (h : d.decode = (.malformed e, d')) :
    d' = d := by
  unfold decode at h
  split at h <;> simp at h
  exact h.2.symm

theorem decode_ne_trailing {d d' : Decoder} {n : Nat} : d.decode ≠ (.trailing n, d') := by
  unfold decode
  split <;> simp

/-- A frame that is taken leaves a shorter buffer. -/
theorem decode_length_lt {d d' : Decoder} {f : Frame} (h : d.decode = (.frame f, d')) :
    d'.buffer.length < d.buffer.length := by
  obtain ⟨hc, hn, _⟩ := decode_frame h
  have := List.length_pos_iff.mpr hn
  rw [← hc, List.length_append]
  omega

theorem decodeEnd_frame {d d' : Decoder} {f : Frame} (h : d.decodeEnd = (.frame f, d')) :
    d.decode = (.frame f, d') := by
  unfold decodeEnd at h
  split at h
  · split at h <;> simp at h
  · exact h

theorem decodeEnd_length_le (d : Decoder) : d.decodeEnd.2.buffer.length ≤ d.buffer.length := by
  unfold decodeEnd
  split
  · rename_i d' h
    have := decode_incomplete h
    split <;> simp [this]
  · rename_i h
    cases hd : d.decode with
    | mk result d' =>
      cases result with
      | frame f => exact Nat.le_of_lt (decode_length_lt hd)
      | incomplete => exact absurd hd (h d')
      | malformed e => simp [decode_malformed hd]
      | trailing n => exact absurd hd decode_ne_trailing

theorem decode_length_le (d : Decoder) : d.decode.2.buffer.length ≤ d.buffer.length := by
  cases hd : d.decode with
  | mk result d' =>
    cases result with
    | frame f => exact Nat.le_of_lt (decode_length_lt hd)
    | incomplete => simp [decode_incomplete hd]
    | malformed e => simp [decode_malformed hd]
    | trailing n => exact absurd hd decode_ne_trailing

/-- Takes frames until the buffer holds no more, with the result that ended it. -/
def drain (d : Decoder) : List Frame × Decoded × Decoder :=
  match _h : d.decode with
  | (.frame f, d') =>
    let (frames, last, final) := d'.drain
    (f :: frames, last, final)
  | (other, d') => ([], other, d')
termination_by d.buffer.length
decreasing_by exact decode_length_lt ‹_›

/-- As `drain`, for a stream that has ended. -/
def drainEnd (d : Decoder) : List Frame × Decoded × Decoder :=
  match _h : d.decodeEnd with
  | (.frame f, d') =>
    let (frames, last, final) := d'.drainEnd
    (f :: frames, last, final)
  | (other, d') => ([], other, d')
termination_by d.buffer.length
decreasing_by exact decode_length_lt (decodeEnd_frame ‹_›)

end Decoder

end FrameIntake
