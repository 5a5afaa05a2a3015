import FrameIntake.Proofs.Framing.Resumption

/-!
Streams that arrive in chunks. Wherever a stream is cut, be it inside a delimiter, a length or a payload,
a decoder takes the same frames and comes to the same ending. It may only find out sooner or later that a
delimiter is missing, and so name another size.
-/

namespace FrameIntake

namespace Partitioner

/-- The same error, but for the size that a delimiter's search has come to. -/
def Alike (p : Partitioner) (e e' : FramingError) : Prop :=
  match p with
  | .delimiter _ max =>
    ∃ size size', e = .oversized size max ∧ e' = .oversized size' max ∧ max < size ∧ max < size'
  | _ => e = e'

/-- The same last word on a stream: clean, the same count of trailing bytes, or the same error. -/
def SameEnding (p : Partitioner) : Decoded → Decoded → Prop
  | .malformed e, .malformed e' => p.Alike e e'
  | last, last' => last = last'

variable {p : Partitioner}

theorem Persists.alike {e later : FramingError} (h : p.Persists e later) : p.Alike e later := by
  cases p with
  | delimiter mark max =>
    obtain ⟨size, grown, he, hl, hm, hg⟩ := h
    exact ⟨size, grown, he, hl, hm, Nat.lt_of_lt_of_le hm hg⟩
  | ascii | binary | fixed => exact h.symm

theorem Alike.symm {e e' : FramingError} (h : p.Alike e e') : p.Alike e' e := by
  cases p with
  | delimiter mark max =>
    obtain ⟨size, size', he, he', hs, hs'⟩ := h
    exact ⟨size', size, he', he, hs', hs⟩
  | ascii | binary | fixed => exact Eq.symm h

theorem Alike.trans {e e' e'' : FramingError} (h : p.Alike e e') (h' : p.Alike e' e'') :
    p.Alike e e'' := by
  cases p with
  | delimiter mark max =>
    obtain ⟨size, _, he, _, hs, _⟩ := h
    obtain ⟨_, size'', _, he'', _, hs''⟩ := h'
    exact ⟨size, size'', he, he'', hs, hs''⟩
  | ascii | binary | fixed => exact Eq.trans h h'

theorem alike_refl_of_malformed {bytes : Bytes} {e : FramingError}
    (h : p.extract bytes 0 = .malformed e) : p.Alike e e := by
  obtain ⟨later, _, hp⟩ := extract_append_malformed h []
  exact hp.alike.trans hp.alike.symm

theorem SameEnding.symm {last last' : Decoded} (h : p.SameEnding last last') :
    p.SameEnding last' last := by
  cases last <;> cases last' <;> first | exact Alike.symm h | exact Eq.symm h

theorem SameEnding.trans {last last' last'' : Decoded} (h : p.SameEnding last last')
    (h' : p.SameEnding last' last'') : p.SameEnding last last'' := by
  cases last <;> cases last' <;> first | contradiction | skip
  all_goals cases last'' <;> first | contradiction | exact Alike.trans h h' | exact Eq.trans h h'

end Partitioner

namespace Decoder

variable {d : Decoder}

/-- Takes in a stream chunk by chunk, all frames after each of them, and then its end. A framing error
ends the run. -/
def run (d : Decoder) : List Bytes → List Frame × Decoded
  | [] => (d.drainEnd.1, d.drainEnd.2.1)
  | chunk :: chunks =>
    match (d.append chunk).drain with
    | (frames, .malformed e, _) => (frames, .malformed e)
    | (frames, _, d') => (frames ++ (d'.run chunks).1, (d'.run chunks).2)

theorem run_nil_eq_cut {p : Partitioner} (h : d.Resumes) (hp : d.partitioner = p) :
    (d.run []).1 = (p.cut d.buffer).frames ∧ p.SameEnding (d.run []).2 (p.cut d.buffer).ending := by
  obtain ⟨d', hd⟩ := drainEnd_eq_cut h hp rfl
  simp only [run, hd, true_and]
  have hr := p.extract_cut_rest d.buffer
  unfold Cut.ending
  cases hf : (p.cut d.buffer).fault with
  | none =>
    dsimp only
    split <;> rfl
  | some e =>
    rw [hf] at hr
    exact Partitioner.alike_refl_of_malformed hr

/-- A run takes the frames of the whole stream, and ends as the whole stream does. -/
theorem run_eq_cut {p : Partitioner} (h : d.Resumes) (hp : d.partitioner = p) (chunks : List Bytes) :
    (d.run chunks).1 = (p.cut (d.buffer ++ chunks.flatten)).frames ∧
      p.SameEnding (d.run chunks).2 (p.cut (d.buffer ++ chunks.flatten)).ending := by
  induction chunks generalizing d with
  | nil =>
    rw [List.flatten_nil, List.append_nil]
    exact run_nil_eq_cut h hp
  | cons chunk chunks ih =>
    obtain ⟨d', hd, hp', hb', hres'⟩ := drain_eq_cut (h.append chunk) hp rfl
    have hb : (d.append chunk).buffer = d.buffer ++ chunk := rfl
    rw [hb] at hd hb'
    rw [List.flatten_cons, ← List.append_assoc, run, hd]
    cases hf : (p.cut (d.buffer ++ chunk)).fault with
    | some e =>
      -- The run has ended, and what follows does not mend the stream.
      obtain ⟨later, hl, hc⟩ := Partitioner.cut_append_of_fault hf chunks.flatten
      simp only [Cut.decoded, hf, hc, true_and]
      exact hl.alike
    | none =>
      obtain ⟨hframes, hending⟩ := ih hres' hp'
      rw [hb'] at hframes hending
      simp only [Cut.decoded, hf]
      rw [p.cut_append (d.buffer ++ chunk), Cut.behind_frames, Cut.behind_ending, hframes]
      exact ⟨rfl, hending⟩

/-- However a stream is cut into chunks, the frames and the ending are the same. -/
theorem run_chunking (p : Partitioner) {wire : Bytes} {chunks chunks' : List Bytes}
    (h : chunks.flatten = wire) (h' : chunks'.flatten = wire) :
    (run { partitioner := p } chunks).1 = (run { partitioner := p } chunks').1 ∧
      p.SameEnding (run { partitioner := p } chunks).2 (run { partitioner := p } chunks').2 := by
  have hfresh : ({ partitioner := p } : Decoder).Resumes := .of_fresh rfl
  obtain ⟨hframes, hending⟩ := run_eq_cut hfresh rfl chunks
  obtain ⟨hframes', hending'⟩ := run_eq_cut hfresh rfl chunks'
  rw [h] at hframes hending
  rw [h'] at hframes' hending'
  exact ⟨hframes.trans hframes'.symm, hending.trans hending'.symm⟩

/-- A delimiter that is cut in two, and behind it a frame that is refused at a size of 3, or of 5 where
the stream comes in one piece. -/
theorem run_chunking_split_mark :
    let p : Partitioner := .delimiter ⟨[13, 10], by decide⟩ 2
    let wire : Bytes := [97, 98, 13, 10, 97, 98, 99, 100, 101, 102]
    let chunks : List Bytes := [[97, 98, 13], [], [10, 97, 98, 99, 100], [101, 102]]
    chunks.flatten = wire ∧ [wire].flatten = wire ∧
      (Decoder.run { partitioner := p } chunks).1 = (Decoder.run { partitioner := p } [wire]).1 ∧
      p.SameEnding (Decoder.run { partitioner := p } chunks).2
        (Decoder.run { partitioner := p } [wire]).2 := by
  intro p wire chunks
  have h : chunks.flatten = wire := by decide
  have h' : [wire].flatten = wire := by decide
  exact ⟨h, h', run_chunking p h h'⟩

end Decoder

end FrameIntake
