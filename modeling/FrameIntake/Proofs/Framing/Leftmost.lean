import FrameIntake.Proofs.Framing.Joined

/-!
Streams that a mark cuts into payloads. A mark may overlap itself, so a stream is cut wherever the mark stands
first. There is one such split of every stream, and a decoder comes to it unless a payload is too long
(`leftmost_split`).
-/

namespace FrameIntake

/-- The needle stands at `i`, and nowhere before. -/
def Bytes.StandsFirst (needle hay : Bytes) (i : Nat) : Prop :=
  OccursAt needle hay i ∧ ∀ j < i, ¬OccursAt needle hay j

namespace Delimiter

variable {mark : Delimiter} {max : Nat} {buf wire q rest : Bytes} {payloads : List Bytes} {b : Bounds}

/-- The stream is the payloads with the mark behind each of them, and a rest, and the mark stands first where
it ends a payload. -/
structure Splits (mark : Delimiter) (wire : Bytes) (payloads : List Bytes) (rest : Bytes) : Prop where
  joined : wire = (payloads.map (· ++ mark.bytes)).flatten ++ rest
  first : ∀ q ∈ payloads, Bytes.StandsFirst mark.bytes (q ++ mark.bytes) q.length
  absent : ∀ i, ¬Bytes.OccursAt mark.bytes rest i

/-- No payload is above the ceiling, and what is left may still become one that is not. -/
structure Within (mark : Delimiter) (max : Nat) (payloads : List Bytes) (rest : Bytes) : Prop where
  payloads : ∀ q ∈ payloads, q.length ≤ max
  rest : rest.length < max + mark.size

theorem not_within_iff :
    ¬mark.Within max payloads rest ↔
      (∃ q ∈ payloads, max < q.length) ∨ max + mark.size ≤ rest.length := by
  constructor
  · intro hnot
    by_contra hnone
    rw [not_or, Nat.not_le] at hnone
    exact hnot ⟨fun q hq => Nat.le_of_not_lt fun hlt => hnone.1 ⟨q, hq, hlt⟩, hnone.2⟩
  · rintro (⟨q, hq, hlt⟩ | hle) within
    · exact Nat.not_lt.mpr (within.payloads q hq) hlt
    · exact Nat.not_lt.mpr hle within.rest

def frame (mark : Delimiter) (payload : Bytes) : Frame :=
  ⟨payload ++ mark.bytes, 0, payload.length⟩

@[simp] theorem payload_frame (mark : Delimiter) (q : Bytes) : (mark.frame q).payload = q := by
  simp [frame, Frame.payload]

@[simp] theorem map_payload_frame (mark : Delimiter) (payloads : List Bytes) :
    (payloads.map mark.frame).map Frame.payload = payloads := by
  simp [Function.comp_def]

@[simp] theorem map_data_frame (mark : Delimiter) (payloads : List Bytes) :
    (payloads.map mark.frame).map Frame.data = payloads.map (· ++ mark.bytes) := by
  rw [List.map_map]
  rfl

theorem accepts_frame (hq : q.length ≤ max)
    (first : Bytes.StandsFirst mark.bytes (q ++ mark.bytes) q.length) :
    (Partitioner.delimiter mark max).Accepts (mark.frame q) := by
  have hf := Bytes.find?_eq_some_iff.mpr first
  refine extract_zero_found_iff.mpr ⟨q.length, hf, hq, ?_⟩
  rw [size, ← List.length_append]
  rfl

/-- A frame that is found ends where the mark stands first. -/
theorem first_of_found (h : mark.extract max buf 0 = .found b) :
    ∃ q, q.length ≤ max ∧ Bytes.StandsFirst mark.bytes (q ++ mark.bytes) q.length ∧
      b.frame buf = mark.frame q := by
  obtain ⟨pos, hf, hm, rfl⟩ := extract_zero_found_iff.mp h
  obtain ⟨⟨⟨behind, hbehind⟩, hle⟩, hleast⟩ := Bytes.find?_eq_some_iff.mp hf
  have hbuf : buf = buf.take pos ++ mark.bytes ++ behind := by
    rw [List.append_assoc, hbehind, List.take_append_drop]
  have hlength : (buf.take pos).length = pos := List.length_take_of_le hle
  generalize buf.take pos = q at hbuf hlength
  subst hlength
  refine ⟨q, hm, ⟨⟨by simp, by simp⟩, ?_⟩, ?_⟩
  · intro j hj ho
    rw [hbuf] at hleast
    exact hleast j hj (ho.append behind)
  · have htake : buf.take (q.length + mark.size) = q ++ mark.bytes := by
      rw [hbuf, size, ← List.length_append, List.take_left]
    simp only [Bounds.frame, frame, htake]

/-- A buffer waits if the mark does not stand in it and it is not too long. -/
theorem waits_iff :
    (∃ r, mark.extract max buf 0 = .needMore r) ↔
      (∀ i, ¬Bytes.OccursAt mark.bytes buf i) ∧ buf.length < max + mark.size := by
  have hm := mark.size_pos
  rw [← Bytes.find?_eq_none_iff]
  constructor
  · rintro ⟨r, h⟩
    obtain ⟨hf, hr, rfl⟩ := extract_zero_needMore_iff.mp h
    exact ⟨hf, by omega⟩
  · rintro ⟨hf, hl⟩
    exact ⟨_, extract_zero_needMore_iff.mpr ⟨hf, by omega, rfl⟩⟩

/-- A split within the ceiling is what the stream is cut into. -/
theorem Splits.cut_eq (h : mark.Splits wire payloads rest) (within : mark.Within max payloads rest) :
    (Partitioner.delimiter mark max).cut wire = { frames := payloads.map mark.frame, rest } := by
  have haccepts : ∀ f ∈ payloads.map mark.frame, (Partitioner.delimiter mark max).Accepts f := by
    intro f hf
    obtain ⟨q, hq, rfl⟩ := List.mem_map.mp hf
    exact accepts_frame (within.payloads q hq) (h.first q hq)
  obtain ⟨r, hwaits⟩ := waits_iff.mpr ⟨h.absent, within.rest⟩
  rw [h.joined, ← mark.map_data_frame, Partitioner.cut_joined haccepts rest,
    Partitioner.cut_of_needMore (p := .delimiter mark max) hwaits]
  simp [Cut.behind]

/-- A stream that is cut to its end is split, within the ceiling. -/
theorem splits_of_cut (h : ((Partitioner.delimiter mark max).cut wire).fault = none) :
    ∃ payloads rest, mark.Splits wire payloads rest ∧ mark.Within max payloads rest := by
  fun_induction (Partitioner.delimiter mark max).cut wire with
  | case1 bytes b hb ih =>
    obtain ⟨payloads, rest, hsplits, hwithin⟩ := ih h
    obtain ⟨q, hq, hfirst, hframe⟩ := first_of_found hb
    have hbytes : bytes = q ++ mark.bytes ++ bytes.drop b.stop := by
      have := congrArg (Frame.data · ++ bytes.drop b.stop) hframe
      exact (List.take_append_drop b.stop bytes).symm.trans this
    refine ⟨q :: payloads, rest, ⟨?_, ?_, hsplits.absent⟩, ⟨?_, hwithin.rest⟩⟩
    · rw [hbytes, hsplits.joined]
      simp
    · exact List.forall_mem_cons.mpr ⟨hfirst, hsplits.first⟩
    · exact List.forall_mem_cons.mpr ⟨hq, hwithin.payloads⟩
  | case2 bytes r hr =>
    obtain ⟨habsent, hlength⟩ := waits_iff.mp ⟨r, hr⟩
    exact ⟨[], bytes, ⟨rfl, by simp, habsent⟩, ⟨by simp, hlength⟩⟩
  | case3 bytes e he => contradiction

/-- The only fault of a stream is that something in it is too long. -/
theorem oversized_of_fault {e : FramingError}
    (h : ((Partitioner.delimiter mark max).cut wire).fault = some e) :
    ∃ size, e = .oversized size max ∧ max < size ∧ size ≤ wire.length := by
  have hrest := (Partitioner.delimiter mark max).extract_cut_rest wire
  have hflat := (Partitioner.delimiter mark max).cut_flatten wire
  rw [h] at hrest
  obtain ⟨size, he, hm, hsize⟩ := extract_zero_malformed_iff.mp hrest
  refine ⟨size, he, hm, ?_⟩
  have hle : ((Partitioner.delimiter mark max).cut wire).rest.length ≤ wire.length := by
    have := congrArg List.length hflat
    rw [List.length_append] at this
    omega
  rcases hsize with hf | ⟨_, rfl⟩
  · have := Bytes.find?_add_length_le hf
    omega
  · omega

/-- Nothing in a stream is longer than all of it. -/
theorem Splits.within_length (h : mark.Splits wire payloads rest) :
    mark.Within wire.length payloads rest := by
  have hm := mark.size_pos
  have hlength : wire.length = ((payloads.map (· ++ mark.bytes)).flatten).length + rest.length := by
    rw [← List.length_append, ← h.joined]
  constructor
  · intro q hq
    have hmem : q ++ mark.bytes ∈ payloads.map (· ++ mark.bytes) := List.mem_map_of_mem hq
    have hle := (List.sublist_flatten_of_mem hmem).length_le
    rw [List.length_append] at hle
    omega
  · omega

theorem exists_splits (mark : Delimiter) (wire : Bytes) :
    ∃ payloads rest, mark.Splits wire payloads rest := by
  have hfault : ((Partitioner.delimiter mark wire.length).cut wire).fault = none := by
    cases hf : ((Partitioner.delimiter mark wire.length).cut wire).fault with
    | none => rfl
    | some e =>
      obtain ⟨size, _, hlt, hle⟩ := oversized_of_fault hf
      omega
  obtain ⟨payloads, rest, h, _⟩ := splits_of_cut hfault
  exact ⟨payloads, rest, h⟩

theorem Splits.unique {payloads' : List Bytes} {rest' : Bytes} (h : mark.Splits wire payloads rest)
    (h' : mark.Splits wire payloads' rest') : payloads = payloads' ∧ rest = rest' := by
  have hcut := (h.cut_eq h.within_length).symm.trans (h'.cut_eq h'.within_length)
  obtain ⟨hframes, _, hrest⟩ := Cut.mk.inj hcut
  refine ⟨?_, hrest⟩
  rw [← mark.map_payload_frame payloads, hframes, map_payload_frame]

/-- A stream is at fault if and only if its split is not within the ceiling. -/
theorem Splits.fault_eq_none_iff (h : mark.Splits wire payloads rest) :
    ((Partitioner.delimiter mark max).cut wire).fault = none ↔ mark.Within max payloads rest := by
  constructor
  · intro hfault
    obtain ⟨payloads', rest', h', hwithin⟩ := splits_of_cut hfault
    obtain ⟨rfl, rfl⟩ := h.unique h'
    exact hwithin
  · intro hwithin
    rw [h.cut_eq hwithin]

theorem splits_joined (first : ∀ q ∈ payloads, Bytes.StandsFirst mark.bytes (q ++ mark.bytes) q.length) :
    mark.Splits (payloads.map (· ++ mark.bytes)).flatten payloads [] := by
  refine ⟨(List.append_nil _).symm, first, ?_⟩
  rintro i ⟨hp, _⟩
  exact mark.nonempty (by simpa using hp)

end Delimiter

namespace Decoder

open Delimiter

variable {mark : Delimiter} {max : Nat} {wire rest : Bytes} {payloads : List Bytes} {chunks : List Bytes}

/-- Within the ceiling, a decoder takes the payloads of the split and leaves its rest. -/
theorem run_splits (h : mark.Splits wire payloads rest) (within : mark.Within max payloads rest)
    (hwire : chunks.flatten = wire) :
    let p : Partitioner := .delimiter mark max
    (fresh p).run chunks =
        (payloads.map mark.frame, if rest.isEmpty then .incomplete else .trailing rest.length) ∧
      ((fresh p).fed chunks).buffer = rest := by
  intro p
  subst hwire
  have hcut : p.cut chunks.flatten = { frames := payloads.map mark.frame, rest } := h.cut_eq within
  rw [run_of_fault_none (by rw [hcut]), (fed_buffer p chunks).2.2, hcut]
  exact ⟨rfl, rfl⟩

/-- A run is refused if and only if the split of the stream is not within the ceiling. -/
theorem run_oversized_iff (h : mark.Splits wire payloads rest) (hwire : chunks.flatten = wire) :
    (∃ size, ((fresh (.delimiter mark max)).run chunks).2 = .malformed (.oversized size max)) ↔
      ¬mark.Within max payloads rest := by
  constructor
  · rintro ⟨size, hsize⟩ within
    rw [(run_splits h within hwire).1] at hsize
    dsimp only at hsize
    split at hsize <;> contradiction
  · intro hnot
    subst hwire
    cases hfault : ((Partitioner.delimiter mark max).cut chunks.flatten).fault with
    | none => exact absurd (h.fault_eq_none_iff.mp hfault) hnot
    | some e =>
      obtain ⟨_, hlast, size, _, rfl, _⟩ := run_of_fault hfault
      exact ⟨size, hlast⟩

/-- Every stream has one split by a mark, whatever the mark. A decoder refuses the stream if and only if a payload
of the split is above the ceiling, or the rest is too long for one that is not; if not, it takes the payloads of
the split, leaves its rest, and tells of it at the end. So payloads of the right sizes come through, if none of
them makes the mark stand before its end. -/
theorem leftmost_split (mark : Delimiter) (max : Nat) :
    let p : Partitioner := .delimiter mark max
    (∀ wire, ∃! split : List Bytes × Bytes, mark.Splits wire split.1 split.2) ∧
      (∀ wire payloads rest, mark.Splits wire payloads rest → ∀ chunks, chunks.flatten = wire →
        ((∃ size, ((fresh p).run chunks).2 = .malformed (.oversized size max)) ↔
            (∃ q ∈ payloads, max < q.length) ∨ max + mark.size ≤ rest.length) ∧
          ((∀ size, ((fresh p).run chunks).2 ≠ .malformed (.oversized size max)) →
            ((fresh p).run chunks).1.map Frame.payload = payloads ∧
              ((fresh p).run chunks).1.map Frame.data = payloads.map (· ++ mark.bytes) ∧
              ((fresh p).fed chunks).buffer = rest ∧
              ((fresh p).run chunks).2 =
                if rest.isEmpty then .incomplete else .trailing rest.length)) ∧
      ∀ payloads : List Bytes,
        (∀ q ∈ payloads, q.length ≤ max ∧ Bytes.StandsFirst mark.bytes (q ++ mark.bytes) q.length) →
          ∀ chunks, chunks.flatten = (payloads.map (· ++ mark.bytes)).flatten →
            ((fresh p).run chunks).1.map Frame.payload = payloads ∧
              ((fresh p).run chunks).2 = .incomplete := by
  intro p
  refine ⟨?_, ?_, ?_⟩
  · intro wire
    obtain ⟨payloads, rest, h⟩ := mark.exists_splits wire
    refine ⟨(payloads, rest), h, ?_⟩
    rintro ⟨payloads', rest'⟩ h'
    obtain ⟨rfl, rfl⟩ := h.unique h'
    rfl
  · intro wire payloads rest h chunks hwire
    have hiff : (∃ size, ((fresh p).run chunks).2 = .malformed (.oversized size max)) ↔
        ¬ mark.Within max payloads rest := run_oversized_iff h hwire
    refine ⟨hiff.trans not_within_iff, ?_⟩
    intro hnone
    have within : mark.Within max payloads rest := by
      by_contra hnot
      obtain ⟨size, hsize⟩ := hiff.mpr hnot
      exact hnone size hsize
    obtain ⟨hrun, hbuffer⟩ := run_splits h within hwire
    rw [hrun, map_payload_frame, map_data_frame]
    exact ⟨rfl, rfl, hbuffer, rfl⟩
  · intro payloads hpayloads chunks hwire
    have h : mark.Splits (payloads.map (· ++ mark.bytes)).flatten payloads [] :=
      splits_joined fun q hq => (hpayloads q hq).2
    have within : mark.Within max payloads [] := by
      refine ⟨fun q hq => (hpayloads q hq).1, ?_⟩
      have := mark.size_pos
      rw [List.length_nil]
      omega
    rw [(run_splits h within hwire).1, map_payload_frame]
    exact ⟨rfl, rfl⟩

/-- A mark that overlaps itself, cut in two. In a run of five of its bytes it stands twice, and the fifth is left.
Under a ceiling of nothing the first payload is refused. -/
theorem leftmost_split_overlapping_mark :
    let mark : Delimiter := ⟨[97, 97], by decide⟩
    let wire : Bytes := [98, 97, 97, 97, 97, 97]
    let chunks : List Bytes := [[98, 97], [97, 97], [97, 97]]
    let whole : List Bytes := [[98, 97, 97, 97], [97]]
    mark.Splits wire [[98], []] [97] ∧ chunks.flatten = wire ∧
      ((fresh (.delimiter mark 1)).run chunks).1.map Frame.payload = [[98], []] ∧
      ((fresh (.delimiter mark 1)).fed chunks).buffer = [97] ∧
      ((fresh (.delimiter mark 1)).run chunks).2 = .trailing 1 ∧
      (∃ size, ((fresh (.delimiter mark 0)).run chunks).2 = .malformed (.oversized size 0)) ∧
      whole.flatten = [[98, 97, 97], [97, 97]].flatten ∧
      ((fresh (.delimiter mark 1)).run whole).1.map Frame.payload = [[98], []] := by
  intro mark wire chunks whole
  have first : ∀ q ∈ ([[98], []] : List Bytes), Bytes.StandsFirst mark.bytes (q ++ mark.bytes) q.length := by
    intro q hq
    simp only [List.mem_cons, List.not_mem_nil, or_false] at hq
    rcases hq with rfl | rfl <;> exact Bytes.find?_eq_some_iff.mp (by decide)
  have h : mark.Splits wire [[98], []] [97] :=
    ⟨by decide, first, Bytes.find?_eq_none_iff.mp (by decide)⟩
  have hwire : chunks.flatten = wire := by decide
  obtain ⟨_, hsplit, hcomes⟩ := leftmost_split mark 1
  obtain ⟨hiff, htakes⟩ := hsplit wire [[98], []] [97] h chunks hwire
  have hnone : ∀ size, ((fresh (.delimiter mark 1)).run chunks).2 ≠ .malformed (.oversized size 1) :=
    fun size hsize => absurd (hiff.mp ⟨size, hsize⟩) (by decide)
  obtain ⟨hpayloads, _, hbuffer, hlast⟩ := htakes hnone
  obtain ⟨hiff', _⟩ := (leftmost_split mark 0).2.1 wire [[98], []] [97] h chunks hwire
  have within : ∀ q ∈ ([[98], []] : List Bytes), q.length ≤ 1 := by decide
  obtain ⟨hwhole, _⟩ := hcomes [[98], []] (fun q hq => ⟨within q hq, first q hq⟩) whole (by decide)
  exact ⟨h, hwire, hpayloads, hbuffer, hlast, hiff'.mpr (by decide), by decide, hwhole⟩

end Decoder

end FrameIntake
