import FrameIntake.Framing.Extract
import FrameIntake.Proofs.Framing.DecimalField

/-!
What is said of a buffer that waits for more bytes. It names how far the buffer was searched, and the buffer
is short: a length that was declared is below the ceiling, and all else in front of a payload is bounded by
the format.
-/

namespace FrameIntake

theorem LengthPrefix.read?_lt {p : LengthPrefix} {bs : Bytes} {n : Nat} (h : p.read? bs = some n) :
    n < bound p.width.bytes := by
  unfold read? at h
  split at h
  · contradiction
  · rename_i hs
    have hl : (bs.take p.width.bytes).length = p.width.bytes := by
      rw [Bytes.isShorterThan_iff] at hs
      rw [List.length_take]
      omega
    obtain rfl := Option.some.inj h
    generalize bs.take p.width.bytes = field at hl ⊢
    rw [← hl]
    cases p.order with
    | little => exact ofLittle_lt field
    | big => exact List.length_reverse ▸ ofLittle_lt field.reverse

variable {offset size headerSize max r : Nat} {mark : Delimiter} {lengths : LengthPrefix} {buf : Bytes}

theorem declaredExtract_needMore (h : declaredExtract headerSize size max buf = .needMore r) :
    r = 0 ∧ size ≤ max ∧ buf.length < headerSize + size := by
  unfold declaredExtract at h
  split at h
  · contradiction
  · rename_i hm
    split at h
    · contradiction
    · split at h
      · rename_i hs
        obtain rfl := Verdict.needMore.inj h
        exact ⟨rfl, Nat.le_of_not_lt hm, Bytes.isShorterThan_iff.mp hs⟩
      · contradiction

theorem Delimiter.extract_needMore {scanFrom : Nat} (h : mark.extract max buf scanFrom = .needMore r) :
    r = buf.length - (mark.size - 1) ∧ r ≤ max := by
  unfold extract at h
  dsimp only at h
  split at h
  · split at h <;> contradiction
  · split at h
    · contradiction
    · rename_i hm
      obtain rfl := Verdict.needMore.inj h
      exact ⟨rfl, Nat.le_of_not_lt hm⟩

theorem asciiExtract_needMore (h : asciiExtract offset mark max buf = .needMore r) :
    r = 0 ∧ buf.length < offset + maxLengthDigits + mark.size + max := by
  have hm := mark.size_pos
  unfold maxLengthDigits
  cases decimalGrammar_iff.mp h with
  | short short => exact ⟨rfl, by omega⟩
  | begun field few begins =>
    have hlength := field.length_eq
    have hshort := (Delimiter.begins_iff.mp begins).2
    exact ⟨rfl, by omega⟩
  | headed field present few marked sized =>
    cases sized with
    | partly within word short => exact ⟨rfl, by omega⟩

theorem binaryExtract_needMore (h : binaryExtract offset lengths max buf = .needMore r) :
    r = 0 ∧ buf.length < offset + lengths.width.bytes +
      min max (LengthPrefix.bound lengths.width.bytes - 1) := by
  have hw := lengths.width.bytes_pos
  unfold binaryExtract at h
  by_cases ho : buf.isShorterThan offset
  · rw [if_pos ho] at h
    rw [Bytes.isShorterThan_iff] at ho
    exact ⟨(Verdict.needMore.inj h).symm, by omega⟩
  rw [if_neg ho] at h
  rw [Bytes.isShorterThan_iff, Nat.not_lt] at ho
  cases hr : lengths.read? (buf.drop offset) with
  | none =>
    rw [hr] at h
    rw [LengthPrefix.read?_eq_none_iff, List.length_drop] at hr
    exact ⟨(Verdict.needMore.inj h).symm, by omega⟩
  | some size =>
    rw [hr] at h
    have hb := LengthPrefix.read?_lt hr
    obtain ⟨hz, hm, hl⟩ := declaredExtract_needMore h
    exact ⟨hz, by omega⟩

theorem fixedExtract_needMore (h : fixedExtract size buf = .needMore r) : r = 0 ∧ buf.length < size := by
  unfold fixedExtract at h
  split at h
  · rename_i hs
    exact ⟨(Verdict.needMore.inj h).symm, Bytes.isShorterThan_iff.mp hs⟩
  · contradiction

end FrameIntake
