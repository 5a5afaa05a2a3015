import FrameIntake.Proofs.Framing.Joined

/-!
Streams that are cut into frames of one size. The frames are the pieces of the stream between the multiples of
that size, whatever the ceiling, and only what is left behind the last whole piece is told of at the end
(`evenly_cut`).
-/

namespace FrameIntake

/-- Bytes that are payload from the first to the last. -/
def Frame.whole (bytes : Bytes) : Frame := ⟨bytes, 0, bytes.length⟩

@[simp] theorem Frame.whole_payload (bytes : Bytes) : (whole bytes).payload = bytes := by
  simp [whole, Frame.payload]

namespace Bytes

variable {size count : Nat} {wire : Bytes}

/-- The first pieces of `size` bytes. -/
def pieces (size count : Nat) (wire : Bytes) : List Bytes :=
  (List.range count).map fun i => wire.extract (i * size) ((i + 1) * size)

theorem pieces_succ (size count : Nat) (wire : Bytes) :
    pieces size (count + 1) wire =
      pieces size count wire ++ [wire.extract (count * size) ((count + 1) * size)] := by
  simp [pieces, List.range_succ]

theorem length_of_mem_pieces (h : count * size ≤ wire.length) :
    ∀ q ∈ pieces size count wire, q.length = size := by
  intro q hq
  obtain ⟨i, hi, rfl⟩ := List.mem_map.mp hq
  have hle : (i + 1) * size ≤ count * size := Nat.mul_le_mul_right size (List.mem_range.mp hi)
  rw [Nat.succ_mul] at hle
  rw [List.extract_eq_take_drop, Nat.succ_mul, Nat.add_sub_cancel_left, List.length_take, List.length_drop]
  omega

theorem flatten_pieces (size count : Nat) (wire : Bytes) :
    (pieces size count wire).flatten = wire.take (count * size) := by
  induction count with
  | zero => simp [pieces]
  | succ count ih =>
    rw [pieces_succ, List.flatten_append, ih, List.flatten_singleton, List.extract_eq_take_drop, Nat.succ_mul,
      Nat.add_sub_cancel_left, List.take_add]

end Bytes

namespace Partitioner

variable {size : Nat}

/-- A fixed size is its own ceiling. -/
theorem fixed_withMax (positive : 0 < size) (ceilings : List Nat) :
    ceilings.foldl (fun p max => p.withMax max) (fixed size positive) = fixed size positive := by
  induction ceilings with
  | nil => rfl
  | cons max ceilings ih => exact ih

theorem accepts_whole (positive : 0 < size) {bytes : Bytes} (h : bytes.length = size) :
    (fixed size positive).Accepts (.whole bytes) := by
  subst h
  have hheld : ¬ bytes.isShorterThan bytes.length := by simp
  exact if_neg hheld

/-- All whole pieces are cut off, and less than one is left. -/
theorem cut_fixed (positive : 0 < size) (wire : Bytes) :
    (fixed size positive).cut wire =
      { frames := (Bytes.pieces size (wire.length / size) wire).map .whole
        rest := wire.drop (wire.length / size * size) } := by
  have hle : wire.length / size * size ≤ wire.length := Nat.div_mul_le_self wire.length size
  have haccepts : ∀ f ∈ (Bytes.pieces size (wire.length / size) wire).map Frame.whole,
      (fixed size positive).Accepts f := by
    intro f hf
    obtain ⟨q, hq, rfl⟩ := List.mem_map.mp hf
    exact accepts_whole positive (Bytes.length_of_mem_pieces hle q hq)
  have hrest : (fixed size positive).extract (wire.drop (wire.length / size * size)) 0 = .needMore 0 := by
    have hlt := Nat.mod_lt wire.length positive
    have hdiv := Nat.div_add_mod' wire.length size
    apply if_pos
    rw [Bytes.isShorterThan_iff, List.length_drop]
    omega
  have hcut := cut_joined haccepts (wire.drop (wire.length / size * size))
  rw [cut_of_needMore hrest, List.map_map] at hcut
  have hdata : (Frame.data ∘ Frame.whole) = id := rfl
  rw [hdata, List.map_id, Bytes.flatten_pieces, List.take_append_drop] at hcut
  rw [hcut]
  simp [Cut.behind]

theorem ending_fixed (positive : 0 < size) (wire : Bytes) :
    ((fixed size positive).cut wire).ending =
      if size ∣ wire.length then .incomplete else .trailing (wire.length % size) := by
  have hmod : wire.length - wire.length / size * size = wire.length % size := by
    have := Nat.div_add_mod' wire.length size
    omega
  simp only [Cut.ending, cut_fixed, List.isEmpty_iff_length_eq_zero, List.length_drop, hmod,
    Nat.dvd_iff_mod_eq_zero]

end Partitioner

namespace Decoder

/-- A stream comes in as its pieces of the fixed size, each of them a frame that is all payload, and never in an
error. It ends clean if it is no longer than its pieces. -/
theorem evenly_cut (size : Nat) (positive : 0 < size) (ceilings : List Nat) (chunks : List Bytes) :
    let p := ceilings.foldl (fun p max => p.withMax max) (Partitioner.fixed size positive)
    let wire := chunks.flatten
    (fresh p).run chunks =
        ((List.range (wire.length / size)).map fun i => .whole (wire.extract (i * size) ((i + 1) * size)),
          if size ∣ wire.length then .incomplete else .trailing (wire.length % size)) ∧
      ((fresh p).run chunks).1.map Frame.payload = ((fresh p).run chunks).1.map Frame.data := by
  intro p wire
  have hp : p = .fixed size positive := Partitioner.fixed_withMax positive ceilings
  have hcut := Partitioner.cut_fixed positive wire
  have hending := Partitioner.ending_fixed positive wire
  rw [← hp] at hcut hending
  have hfault : (p.cut chunks.flatten).fault = none := by rw [hcut]
  have hrun := run_of_fault_none hfault
  rw [hending, hcut, Bytes.pieces, List.map_map] at hrun
  refine ⟨hrun, ?_⟩
  rw [hrun, List.map_map, List.map_map]
  apply List.map_congr_left
  intro i _
  exact Frame.whole_payload _

/-- Two ceilings below the size, two pieces that come in parts, and two bytes too many. -/
theorem evenly_cut_low_ceiling :
    let p := [1, 0].foldl (fun p max => p.withMax max) (Partitioner.fixed 3 (by decide))
    let chunks : List Bytes := [[1, 2], [3, 4], [], [5, 6, 7, 8]]
    0 < 3 ∧
      (fresh p).run chunks = ([.whole [1, 2, 3], .whole [4, 5, 6]], .trailing 2) ∧
      ((fresh p).run chunks).1.map Frame.payload = [[1, 2, 3], [4, 5, 6]] := by
  intro p chunks
  obtain ⟨hrun, hpayload⟩ := evenly_cut 3 (by decide) [1, 0] chunks
  have hcome : (fresh p).run chunks = ([.whole [1, 2, 3], .whole [4, 5, 6]], .trailing 2) := hrun.trans (by decide)
  exact ⟨by decide, hcome, hpayload.trans (by rw [hcome]; rfl)⟩

end Decoder

end FrameIntake
