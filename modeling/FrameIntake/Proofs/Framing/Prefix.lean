import FrameIntake.Framing.LengthPrefix
import FrameIntake.Proofs.Framing.Waiting

/-!
A length and the bytes in which it is written. What is written is read again whatever follows
(`read?_append_of_encode?`), and what is read is written in the bytes that it was read from
(`encode?_of_read?`).
-/

namespace FrameIntake.LengthPrefix

variable {p : LengthPrefix} {n : Nat} {bs : Bytes}

theorem encode?_of_lt (p : LengthPrefix) (h : n < bound p.width.bytes) :
    ∃ bs, p.encode? n = some bs := by
  rw [encode?, if_pos h]
  exact ⟨_, rfl⟩

theorem lt_of_encode? (h : p.encode? n = some bs) : n < bound p.width.bytes := by
  unfold encode? at h
  split at h
  · assumption
  · contradiction

/-- The bytes of a length that fits. -/
theorem eq_of_encode? (h : p.encode? n = some bs) :
    bs = match p.order with
      | .little => toLittle p.width.bytes n
      | .big => (toLittle p.width.bytes n).reverse := by
  rw [encode?, if_pos (lt_of_encode? h)] at h
  exact (Option.some.inj h).symm

theorem length_of_encode? (h : p.encode? n = some bs) : bs.length = p.width.bytes := by
  rw [eq_of_encode? h]
  cases p.order with
  | little => exact length_toLittle _ _
  | big => rw [List.length_reverse, length_toLittle]

theorem read?_of_length_le (h : p.width.bytes ≤ bs.length) :
    p.read? bs = some (match p.order with
      | .little => ofLittle (bs.take p.width.bytes)
      | .big => ofLittle (bs.take p.width.bytes).reverse) := by
  have hlong : ¬bs.isShorterThan p.width.bytes := by simpa using h
  unfold read?
  exact if_neg hlong

theorem read?_append_of_encode? (h : p.encode? n = some bs) (more : Bytes) :
    p.read? (bs ++ more) = some n := by
  have hl := length_of_encode? h
  have hn : ofLittle (toLittle p.width.bytes n) = n := by
    rw [ofLittle_toLittle, Nat.mod_eq_of_lt (lt_of_encode? h)]
  rw [read?_of_length_le (by rw [List.length_append]; omega), List.take_left' hl, eq_of_encode? h]
  cases p.order with
  | little => exact congrArg some hn
  | big =>
    dsimp only
    rw [List.reverse_reverse, hn]

theorem encode?_of_read? (h : p.read? bs = some n) : p.encode? n = some (bs.take p.width.bytes) := by
  have hw : p.width.bytes ≤ bs.length := by
    apply Nat.le_of_not_lt
    intro hlt
    rw [read?_eq_none_iff.mpr hlt] at h
    contradiction
  have hl : (bs.take p.width.bytes).length = p.width.bytes := List.length_take_of_le hw
  rw [encode?, if_pos (read?_lt h)]
  rw [read?_of_length_le hw] at h
  obtain rfl := Option.some.inj h
  generalize bs.take p.width.bytes = field at hl
  rw [← hl]
  cases p.order with
  | little => exact congrArg some (toLittle_ofLittle field)
  | big =>
    have hr : toLittle field.length (ofLittle field.reverse) = field.reverse := by
      rw [← List.length_reverse, toLittle_ofLittle]
    dsimp only
    rw [hr, List.reverse_reverse]

end FrameIntake.LengthPrefix
