import FrameIntake.Proofs.Framing.Calls
import FrameIntake.Proofs.Framing.Chunking
import Mathlib.Data.List.Induction

/-!
Frames that stand one behind the other. If each of them is taken where it stands alone, all of them are taken
where they stand together, in whatever chunks they arrive (`run_joined`).
-/

namespace FrameIntake

/-- A payload with what stands in front of it. -/
def Frame.headed (header payload : Bytes) : Frame :=
  ⟨header ++ payload, header.length, (header ++ payload).length⟩

@[simp] theorem Frame.headed_payload (header payload : Bytes) :
    (headed header payload).payload = payload := by
  rw [headed, Frame.payload, List.take_length, List.drop_left]

/-- A header that declares the payload behind it is the header of one frame. -/
theorem declaredExtract_headed {header payload : Bytes} {max : Nat} (ceiling : payload.length ≤ max)
    (word : (header ++ payload).length < wordLimit) :
    declaredExtract header.length payload.length max (header ++ payload) =
      .found ⟨(header ++ payload).length, header.length, (header ++ payload).length⟩ := by
  have hl : (header ++ payload).length = header.length + payload.length := List.length_append
  rw [hl] at word ⊢
  have hs : ¬Bytes.isShorterThan (header ++ payload) (header.length + payload.length) := by simp
  rw [declaredExtract, if_neg (Nat.not_lt.mpr ceiling), if_neg (Nat.not_le.mpr word), if_neg hs]

namespace Partitioner

variable {p : Partitioner} {f : Frame} {frames : List Frame}

/-- The bytes of `f` are this one frame. -/
def Accepts (p : Partitioner) (f : Frame) : Prop :=
  p.extract f.data 0 = .found ⟨f.data.length, f.payloadStart, f.payloadStop⟩

theorem Accepts.cut_append (h : p.Accepts f) (more : Bytes) :
    p.cut (f.data ++ more) = (p.cut more).behind [f] := by
  rw [cut_append_of_found h]
  simp [Bounds.frame]

theorem cut_joined (h : ∀ f ∈ frames, p.Accepts f) (rest : Bytes) :
    p.cut ((frames.map Frame.data).flatten ++ rest) = (p.cut rest).behind frames := by
  induction frames with
  | nil => rfl
  | cons f frames ih =>
    rw [List.map_cons, List.flatten_cons, List.append_assoc, (h f List.mem_cons_self).cut_append,
      ih fun g hg => h g (List.mem_cons_of_mem f hg), Cut.behind_behind]
    rfl

end Partitioner

namespace Decoder

variable {p : Partitioner} {frames : List Frame} {chunks : List Bytes}

theorem run_fresh (p : Partitioner) (chunks : List Bytes) :
    ((fresh p).run chunks).1 = (p.cut chunks.flatten).frames ∧
      p.SameEnding ((fresh p).run chunks).2 (p.cut chunks.flatten).ending :=
  run_eq_cut (d := fresh p) (.of_fresh rfl) rfl chunks

/-- Where nothing is at fault in the whole stream, the last words are the same, and not only alike. -/
theorem run_of_fault_none (h : (p.cut chunks.flatten).fault = none) :
    (fresh p).run chunks = ((p.cut chunks.flatten).frames, (p.cut chunks.flatten).ending) := by
  obtain ⟨hframes, hending⟩ := run_fresh p chunks
  refine Prod.ext hframes ?_
  generalize ((fresh p).run chunks).2 = last at hending ⊢
  revert hending
  simp only [Cut.ending, h]
  cases last <;> split <;> exact id

theorem run_of_fault {e : FramingError} (h : (p.cut chunks.flatten).fault = some e) :
    ∃ found, ((fresh p).run chunks).2 = .malformed found ∧ p.Alike found e := by
  obtain ⟨_, hending⟩ := run_fresh p chunks
  generalize ((fresh p).run chunks).2 = last at hending ⊢
  simp only [Cut.ending, h] at hending
  cases last with
  | malformed found => exact ⟨found, rfl, hending⟩
  | frame | incomplete | trailing => contradiction

theorem run_joined (h : ∀ f ∈ frames, p.Accepts f)
    (hwire : chunks.flatten = (frames.map Frame.data).flatten) :
    (fresh p).run chunks = (frames, .incomplete) := by
  have hcut : p.cut chunks.flatten = { frames, rest := [] } := by
    have := Partitioner.cut_joined h []
    rw [List.append_nil, ← hwire, Partitioner.cut_nil] at this
    simpa [Cut.behind] using this
  rw [run_of_fault_none (by rw [hcut]), hcut]
  rfl

/-- The decoder once the chunks are in it and their frames are taken. -/
def fed (d : Decoder) (chunks : List Bytes) : Decoder :=
  chunks.foldl (fun d chunk => (d.append chunk).drain.2.2) d

/-- What no frame took is left, at fault or not. -/
theorem fed_buffer (p : Partitioner) (chunks : List Bytes) :
    ((fresh p).fed chunks).Resumes ∧ ((fresh p).fed chunks).partitioner = p ∧
      ((fresh p).fed chunks).buffer = (p.cut chunks.flatten).rest := by
  induction chunks using List.reverseRecOn with
  | nil => exact ⟨.of_fresh rfl, rfl, by simp [fed, fresh]⟩
  | append_singleton chunks chunk ih =>
    obtain ⟨hres, hp, hb⟩ := ih
    obtain ⟨d, hd, hp', hb', hres'⟩ := drain_eq_cut (hres.append chunk) hp rfl
    have hfed : (fresh p).fed (chunks ++ [chunk]) = d := by
      rw [fed, List.foldl_append]
      exact congrArg (·.2.2) hd
    have hwire : (chunks ++ [chunk]).flatten = chunks.flatten ++ chunk := by simp
    have hrest : (((fresh p).fed chunks).append chunk).buffer = (p.cut chunks.flatten).rest ++ chunk := by
      rw [← hb]
      rfl
    rw [hfed, hwire, p.cut_append, Cut.behind_rest, hb', hrest]
    exact ⟨hres', hp', rfl⟩

end Decoder

end FrameIntake
