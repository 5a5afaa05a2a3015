import FrameIntake.Proofs.Framing.Cut

/-!
The cursor of a decoder is no part of its answers. `Decoder.Resumes` says so of a decoder and of all that
may still be appended to it; every operation keeps it, so that draining a decoder cuts its buffer
(`drain_eq_cut`, `drainEnd_eq_cut`).
-/

namespace FrameIntake

namespace Delimiter

variable {mark : Delimiter} {max : Nat} {buf : Bytes} {k : Nat}

/-- A search may resume behind positions at which the delimiter does not stand. -/
theorem extract_of_absent (hk : k ≤ buf.length)
    (h : ∀ j < k, ¬Bytes.OccursAt mark.bytes buf j) :
    mark.extract max buf k = mark.extract max buf 0 := by
  have hl : (buf.take k).length = k := by
    rw [List.length_take]
    omega
  rw [extract_zero, extract, hl, Bytes.find?_drop hk h]
  cases Bytes.find? mark.bytes (buf.drop k) <;> rfl

theorem extract_resume {r : Nat} (h : mark.extract max buf 0 = .needMore r) (more : Bytes) :
    mark.extract max (buf ++ more) r = mark.extract max (buf ++ more) 0 := by
  obtain ⟨hf, _, rfl⟩ := extract_zero_needMore_iff.mp h
  apply extract_of_absent (by rw [List.length_append]; omega)
  intro j hj
  exact Bytes.not_occursAt_of_vain mark.nonempty hf more hj

end Delimiter

theorem Partitioner.extract_resume {p : Partitioner} {buf : Bytes} {r : Nat}
    (h : p.extract buf 0 = .needMore r) (more : Bytes) :
    p.extract (buf ++ more) r = p.extract (buf ++ more) 0 := by
  cases p with
  | delimiter mark max => exact Delimiter.extract_resume h more
  | ascii | binary | fixed => rfl

namespace Cut

/-- What a decoder says once it has taken all frames. -/
def decoded (c : Cut) : Decoded :=
  match c.fault with
  | some e => .malformed e
  | none => .incomplete

/-- What a decoder says once it has taken all frames and the stream has ended. -/
def ending (c : Cut) : Decoded :=
  match c.fault with
  | some e => .malformed e
  | none => if c.rest.isEmpty then .incomplete else .trailing c.rest.length

@[simp] theorem behind_ending (frames : List Frame) (c : Cut) :
    (c.behind frames).ending = c.ending := rfl

end Cut

namespace Decoder

variable {d : Decoder}

/-- Whatever follows, the verdict is that of a search from the front. -/
def Resumes (d : Decoder) : Prop :=
  ∀ more, d.partitioner.extract (d.buffer ++ more) d.scanFrom =
    d.partitioner.extract (d.buffer ++ more) 0

theorem Resumes.of_fresh (h : d.scanFrom = 0) : d.Resumes := by
  intro more
  rw [h]

theorem Resumes.append (h : d.Resumes) (bytes : Bytes) : (d.append bytes).Resumes := by
  intro more
  have := h (bytes ++ more)
  rw [← List.append_assoc] at this
  exact this

theorem Resumes.extract (h : d.Resumes) :
    d.partitioner.extract d.buffer d.scanFrom = d.partitioner.extract d.buffer 0 := by
  simpa using h []

theorem Resumes.of_needMore {r : Nat} (h : d.partitioner.extract d.buffer 0 = .needMore r) :
    ({ d with scanFrom := r } : Decoder).Resumes :=
  fun more => Partitioner.extract_resume h more

/-- What an attempt to take a frame comes to, as a search from the front would have it. -/
theorem Resumes.decode_eq (h : d.Resumes) :
    d.decode =
      match d.partitioner.extract d.buffer 0 with
      | .found b => (.frame (b.frame d.buffer), { d with buffer := d.buffer.drop b.stop, scanFrom := 0 })
      | .needMore r => (.incomplete, { d with scanFrom := r })
      | .malformed e => (.malformed e, d) := by
  rw [decode, h.extract]
  cases d.partitioner.extract d.buffer 0 <;> rfl

theorem Resumes.decodeEnd_eq (h : d.Resumes) :
    d.decodeEnd =
      match d.partitioner.extract d.buffer 0 with
      | .found b => (.frame (b.frame d.buffer), { d with buffer := d.buffer.drop b.stop, scanFrom := 0 })
      | .needMore r =>
        if d.buffer.isEmpty then (.incomplete, { d with scanFrom := r })
        else (.trailing d.buffer.length, { d with buffer := [], scanFrom := 0 })
      | .malformed e => (.malformed e, d) := by
  rw [decodeEnd, h.decode_eq]
  cases d.partitioner.extract d.buffer 0 <;> rfl

theorem Resumes.decode (h : d.Resumes) : d.decode.2.Resumes := by
  rw [h.decode_eq]
  cases he : d.partitioner.extract d.buffer 0 with
  | found b => exact .of_fresh rfl
  | needMore r => exact .of_needMore he
  | malformed e => exact h

theorem Resumes.decodeEnd (h : d.Resumes) : d.decodeEnd.2.Resumes := by
  rw [h.decodeEnd_eq]
  cases he : d.partitioner.extract d.buffer 0 with
  | found b => exact .of_fresh rfl
  | needMore r =>
    dsimp only
    split
    · exact .of_needMore he
    · exact .of_fresh rfl
  | malformed e => exact h

theorem drain_frame {d' : Decoder} {f : Frame} (h : d.decode = (.frame f, d')) :
    d.drain = (f :: d'.drain.1, d'.drain.2) := by
  rw [drain]
  split
  · rename_i g e hd
    cases h.symm.trans hd
    rfl
  · rename_i hn hd
    cases h.symm.trans hd
    exact absurd rfl (hn f)

theorem drain_last {d' : Decoder} {last : Decoded} (h : d.decode = (last, d'))
    (hn : ∀ f, last ≠ .frame f) : d.drain = ([], last, d') := by
  rw [drain]
  split
  · rename_i g e hd
    cases h.symm.trans hd
    exact absurd rfl (hn g)
  · rename_i hd
    cases h.symm.trans hd
    rfl

theorem drainEnd_frame {d' : Decoder} {f : Frame} (h : d.decodeEnd = (.frame f, d')) :
    d.drainEnd = (f :: d'.drainEnd.1, d'.drainEnd.2) := by
  rw [drainEnd]
  split
  · rename_i g e hd
    cases h.symm.trans hd
    rfl
  · rename_i hn hd
    cases h.symm.trans hd
    exact absurd rfl (hn f)

theorem drainEnd_last {d' : Decoder} {last : Decoded} (h : d.decodeEnd = (last, d'))
    (hn : ∀ f, last ≠ .frame f) : d.drainEnd = ([], last, d') := by
  rw [drainEnd]
  split
  · rename_i g e hd
    cases h.symm.trans hd
    exact absurd rfl (hn g)
  · rename_i hd
    cases h.symm.trans hd
    rfl

/-- Draining a decoder cuts its buffer, and leaves what is left of it. -/
theorem drain_eq_cut {p : Partitioner} {bytes : Bytes} (h : d.Resumes) (hp : d.partitioner = p)
    (hb : d.buffer = bytes) :
    ∃ d', d.drain = ((p.cut bytes).frames, (p.cut bytes).decoded, d') ∧
      d'.partitioner = p ∧ d'.buffer = (p.cut bytes).rest ∧ d'.Resumes := by
  fun_induction p.cut bytes generalizing d with
  | case1 bytes b he ih =>
    subst hp hb
    have hd := h.decode_eq
    rw [he] at hd
    have hn := h.decode
    rw [hd] at hn
    obtain ⟨d', hdrain, hd'⟩ := ih hn rfl rfl
    refine ⟨d', ?_, hd'⟩
    rw [drain_frame hd, hdrain]
    rfl
  | case2 bytes r he =>
    subst hp hb
    have hd := h.decode_eq
    rw [he] at hd
    exact ⟨_, drain_last hd (by simp [Cut.decoded]), rfl, rfl, .of_needMore he⟩
  | case3 bytes e he =>
    subst hp hb
    have hd := h.decode_eq
    rw [he] at hd
    exact ⟨d, drain_last hd (by simp [Cut.decoded]), rfl, rfl, h⟩

theorem drainEnd_eq_cut {p : Partitioner} {bytes : Bytes} (h : d.Resumes) (hp : d.partitioner = p)
    (hb : d.buffer = bytes) :
    ∃ d', d.drainEnd = ((p.cut bytes).frames, (p.cut bytes).ending, d') := by
  fun_induction p.cut bytes generalizing d with
  | case1 bytes b he ih =>
    subst hp hb
    have hd := h.decodeEnd_eq
    rw [he] at hd
    have hn := h.decodeEnd
    rw [hd] at hn
    obtain ⟨d', hdrain⟩ := ih hn rfl rfl
    refine ⟨d', ?_⟩
    rw [drainEnd_frame hd, hdrain]
    rfl
  | case2 bytes r he =>
    subst hp hb
    have hd := h.decodeEnd_eq
    rw [he] at hd
    dsimp only [Cut.ending]
    cases hc : d.buffer.isEmpty with
    | true =>
      rw [hc] at hd
      exact ⟨_, drainEnd_last hd (by simp)⟩
    | false =>
      rw [hc] at hd
      exact ⟨_, drainEnd_last hd (by simp)⟩
  | case3 bytes e he =>
    subst hp hb
    have hd := h.decodeEnd_eq
    rw [he] at hd
    exact ⟨d, drainEnd_last hd (by simp [Cut.ending])⟩

end Decoder

end FrameIntake
