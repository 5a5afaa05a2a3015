import FrameIntake.Framing.Decoder
import FrameIntake.Proofs.Framing.Finality

/-!
A byte string cut from its start into whole frames, each verdict on all that is left. This is what a
decoder has to come to, however the bytes reach it. A longer byte string is cut as the shorter one was,
from where that came to its end (`cut_append`).
-/

namespace FrameIntake

/-- A byte string taken apart. -/
structure Cut where
  frames : List Frame := []
  /-- Why what is left can never start with a frame. -/
  fault : Option FramingError := none
  /-- What is left behind the frames. -/
  rest : Bytes
  deriving DecidableEq, Repr

namespace Cut

/-- The cut of a byte string in front of which `frames` were taken. -/
def behind (frames : List Frame) (c : Cut) : Cut := { c with frames := frames ++ c.frames }

@[simp] theorem behind_frames (frames : List Frame) (c : Cut) :
    (c.behind frames).frames = frames ++ c.frames := rfl

@[simp] theorem behind_fault (frames : List Frame) (c : Cut) : (c.behind frames).fault = c.fault := rfl

@[simp] theorem behind_rest (frames : List Frame) (c : Cut) : (c.behind frames).rest = c.rest := rfl

@[simp] theorem behind_nil (c : Cut) : c.behind [] = c := rfl

theorem behind_behind (front frames : List Frame) (c : Cut) :
    (c.behind frames).behind front = c.behind (front ++ frames) := by
  simp [behind]

end Cut

/-- The frame that stands at the front of `bytes`. -/
def Bounds.frame (b : Bounds) (bytes : Bytes) : Frame :=
  ⟨bytes.take b.stop, b.payloadStart, b.payloadStop⟩

theorem Bounds.frame_append {b : Bounds} {bytes : Bytes} (h : b.stop ≤ bytes.length) (more : Bytes) :
    b.frame (bytes ++ more) = b.frame bytes := by
  unfold frame
  rw [List.take_append_of_le_length h]

namespace Partitioner

variable {p : Partitioner} {bytes : Bytes}

def cut (p : Partitioner) (bytes : Bytes) : Cut :=
  match _h : p.extract bytes 0 with
  | .found b => (p.cut (bytes.drop b.stop)).behind [b.frame bytes]
  | .needMore _ => { rest := bytes }
  | .malformed e => { fault := some e, rest := bytes }
termination_by bytes.length
decreasing_by
  obtain ⟨hpos, hle, _⟩ := extract_found ‹_›
  rw [List.length_drop]
  omega

theorem cut_of_found {b : Bounds} (h : p.extract bytes 0 = .found b) :
    p.cut bytes = (p.cut (bytes.drop b.stop)).behind [b.frame bytes] := by
  rw [cut]
  split
  · rename_i c hc
    cases h.symm.trans hc
    rfl
  · rename_i hc
    cases h.symm.trans hc
  · rename_i hc
    cases h.symm.trans hc

theorem cut_of_needMore {r : Nat} (h : p.extract bytes 0 = .needMore r) :
    p.cut bytes = { rest := bytes } := by
  rw [cut]
  split
  · rename_i hc
    cases h.symm.trans hc
  · rfl
  · rename_i hc
    cases h.symm.trans hc

theorem cut_of_malformed {e : FramingError} (h : p.extract bytes 0 = .malformed e) :
    p.cut bytes = { fault := some e, rest := bytes } := by
  rw [cut]
  split
  · rename_i hc
    cases h.symm.trans hc
  · rename_i hc
    cases h.symm.trans hc
  · rename_i hc
    cases h.symm.trans hc
    rfl

@[simp] theorem cut_nil (p : Partitioner) : p.cut [] = { rest := [] } :=
  cut_of_needMore (p.extract_nil 0)

/-- The frame at the front, and the cut of what is behind it. -/
theorem cut_append_of_found {b : Bounds} (h : p.extract bytes 0 = .found b) (more : Bytes) :
    p.cut (bytes ++ more) = (p.cut (bytes.drop b.stop ++ more)).behind [b.frame bytes] := by
  obtain ⟨_, hle, _⟩ := extract_found h
  rw [cut_of_found (extract_append_found h more), List.drop_append_of_le_length hle,
    Bounds.frame_append hle]

/-- No byte is lost or made up. -/
theorem cut_flatten (p : Partitioner) (bytes : Bytes) :
    ((p.cut bytes).frames.map Frame.data).flatten ++ (p.cut bytes).rest = bytes := by
  fun_induction p.cut bytes with
  | case1 bytes b h ih =>
    simp only [Cut.behind_frames, Cut.behind_rest, List.singleton_append, List.map_cons,
      List.flatten_cons, List.append_assoc, ih]
    exact List.take_append_drop _ _
  | case2 | case3 => rfl

/-- What is left waits for more bytes, or is malformed. -/
theorem extract_cut_rest (p : Partitioner) (bytes : Bytes) :
    match (p.cut bytes).fault with
    | none => ∃ r, p.extract (p.cut bytes).rest 0 = .needMore r
    | some e => p.extract (p.cut bytes).rest 0 = .malformed e := by
  fun_induction p.cut bytes with
  | case1 bytes b h ih => exact ih
  | case2 bytes r h => exact ⟨r, h⟩
  | case3 bytes e h => exact h

theorem cut_append (p : Partitioner) (bytes more : Bytes) :
    p.cut (bytes ++ more) =
      (p.cut ((p.cut bytes).rest ++ more)).behind (p.cut bytes).frames := by
  fun_induction p.cut bytes with
  | case1 bytes b h ih =>
    rw [cut_append_of_found h, ih, Cut.behind_behind]
    rfl
  | case2 | case3 => rfl

/-- A fault is there for good: nothing more is cut off, whatever follows. -/
theorem cut_append_of_malformed {e : FramingError} (h : p.extract bytes 0 = .malformed e)
    (more : Bytes) :
    ∃ later, p.Persists e later ∧
      p.cut (bytes ++ more) = { fault := some later, rest := bytes ++ more } := by
  obtain ⟨later, hl, hp⟩ := extract_append_malformed h more
  exact ⟨later, hp, cut_of_malformed hl⟩

theorem cut_append_of_fault {e : FramingError} (h : (p.cut bytes).fault = some e) (more : Bytes) :
    ∃ later, p.Persists e later ∧
      p.cut (bytes ++ more) =
        { frames := (p.cut bytes).frames, fault := some later, rest := (p.cut bytes).rest ++ more } := by
  have hr := p.extract_cut_rest bytes
  rw [h] at hr
  obtain ⟨later, hp, hc⟩ := cut_append_of_malformed hr more
  refine ⟨later, hp, ?_⟩
  rw [cut_append, hc]
  simp [Cut.behind]

/-- Of `bytes` the frames `taken` were taken, and the rest is `buffer`, whatever follows. -/
def Takes (p : Partitioner) (bytes : Bytes) (taken : List Frame) (buffer : Bytes) : Prop :=
  ∀ more, p.cut (bytes ++ more) = (p.cut (buffer ++ more)).behind taken

variable {taken : List Frame} {buffer : Bytes}

theorem Takes.nil (p : Partitioner) : p.Takes [] [] [] := by
  intro more
  simp

theorem Takes.append (h : p.Takes bytes taken buffer) (more : Bytes) :
    p.Takes (bytes ++ more) taken (buffer ++ more) := by
  intro rest
  rw [List.append_assoc, List.append_assoc]
  exact h (more ++ rest)

theorem Takes.found {b : Bounds} (h : p.Takes bytes taken buffer) (hb : p.extract buffer 0 = .found b) :
    p.Takes bytes (taken ++ [b.frame buffer]) (buffer.drop b.stop) := by
  intro more
  rw [h, cut_append_of_found hb, Cut.behind_behind]

theorem Takes.cut_eq (h : p.Takes bytes taken buffer) : p.cut bytes = (p.cut buffer).behind taken := by
  have := h []
  rwa [List.append_nil, List.append_nil] at this

theorem Takes.frames (h : p.Takes bytes taken buffer) : taken <+: (p.cut bytes).frames := by
  rw [h.cut_eq]
  exact List.prefix_append _ _

theorem Takes.flatten (h : p.Takes bytes taken buffer) :
    bytes = (taken.map Frame.data).flatten ++ buffer := by
  rw [← p.cut_flatten bytes, h.cut_eq]
  simp only [Cut.behind_frames, Cut.behind_rest, List.map_append, List.flatten_append,
    List.append_assoc]
  rw [p.cut_flatten buffer]

end Partitioner

end FrameIntake
