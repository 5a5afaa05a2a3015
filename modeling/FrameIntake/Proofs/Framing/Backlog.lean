import FrameIntake.Proofs.Framing.Calls
import FrameIntake.Proofs.Framing.Waiting
import Mathlib.Algebra.Ring.Nat

/-!
What a ceiling on payloads keeps out of memory. A frame that is taken has no larger payload, and a buffer
that waits for more bytes holds no more than a header and a payload could take, but for one byte
(`Partitioner.backlog`).
-/

namespace FrameIntake

theorem LengthPrefix.bound_eq_two_pow (width : Nat) : bound width = 2 ^ (8 * width) := by
  induction width with
  | zero => rfl
  | succ width ih =>
    calc bound (width + 1) = 256 * 2 ^ (8 * width) := by rw [bound, ih]
      _ = 2 ^ 8 * 2 ^ (8 * width) := rfl
      _ = 2 ^ (8 * (width + 1)) := by rw [← pow_add, Nat.mul_succ, Nat.add_comm]

theorem Bounds.length_payload_le (b : Bounds) (bytes : Bytes) :
    (b.frame bytes).payload.length ≤ b.payloadStop - b.payloadStart := by
  rw [Frame.payload, List.length_drop, List.length_take]
  exact Nat.sub_le_sub_right (Nat.min_le_left _ _) _

theorem declaredExtract_payload_le {headerSize size max : Nat} {buf : Bytes} {b : Bounds}
    (h : declaredExtract headerSize size max buf = .found b) :
    b.payloadStop - b.payloadStart ≤ max := by
  obtain ⟨rfl, _, hm⟩ := declaredExtract_found h
  dsimp only
  omega

namespace Partitioner

variable {p : Partitioner} {max r k : Nat} {buf : Bytes} {b : Bounds}

/-- States that `max` is the ceiling. A fixed size keeps below it. -/
def HasCeiling (p : Partitioner) (max : Nat) : Prop :=
  match p with
  | .delimiter _ ceiling | .ascii _ _ ceiling | .binary _ _ ceiling => ceiling = max
  | .fixed size _ => size ≤ max

/-- The most bytes that may be left waiting for more under a ceiling of `max`. -/
def backlog (p : Partitioner) (max : Nat) : Nat :=
  match p with
  | .delimiter mark _ => max + mark.size - 1
  | .ascii offset mark _ => offset + 20 + mark.size + max - 1
  | .binary offset lengths _ =>
    offset + lengths.width.bytes + min max (2 ^ (8 * lengths.width.bytes) - 1) - 1
  | .fixed size _ => size - 1

theorem payload_le (ceiling : p.HasCeiling max) (h : p.extract buf k = .found b) :
    b.payloadStop - b.payloadStart ≤ max := by
  cases p with
  | delimiter mark m =>
    subst ceiling
    simp only [extract, Delimiter.extract] at h
    split at h
    · split at h
      · contradiction
      · rename_i hm
        obtain rfl := Verdict.found.inj h
        exact Nat.le_of_not_lt hm
    · split at h <;> contradiction
  | ascii offset mark m =>
    subst ceiling
    cases decimalGrammar_iff.mp h with
    | headed field present few marked sized =>
      cases sized with
      | whole within => rwa [Nat.add_sub_cancel_left]
  | binary offset lengths m =>
    subst ceiling
    simp only [extract, binaryExtract] at h
    repeat' split at h
    all_goals first | contradiction | exact declaredExtract_payload_le h
  | fixed size positive =>
    simp only [extract, fixedExtract] at h
    split at h
    · contradiction
    · obtain rfl := Verdict.found.inj h
      exact ceiling

theorem backlog_le (ceiling : p.HasCeiling max) (h : p.extract buf k = .needMore r) :
    buf.length ≤ p.backlog max := by
  cases p with
  | delimiter mark m =>
    subst ceiling
    obtain ⟨rfl, hm⟩ := Delimiter.extract_needMore h
    have := mark.size_pos
    simp only [backlog]
    omega
  | ascii offset mark m =>
    subst ceiling
    have hl := (asciiExtract_needMore h).2
    simp only [backlog]
    unfold maxLengthDigits at hl
    omega
  | binary offset lengths m =>
    subst ceiling
    have hl := (binaryExtract_needMore h).2
    rw [LengthPrefix.bound_eq_two_pow] at hl
    exact Nat.le_sub_one_of_lt hl
  | fixed size positive =>
    exact Nat.le_sub_one_of_lt (fixedExtract_needMore h).2

end Partitioner

namespace Decoder

variable {d d' : Decoder} {c : Call} {max : Nat}

theorem Comes.payload_le {f : Frame} (h : d.Comes c (.answered (.frame f)) d')
    (ceiling : d.partitioner.HasCeiling max) : f.payload.length ≤ max := by
  cases h with
  | frame found =>
    exact Nat.le_trans (Bounds.length_payload_le _ _) (Partitioner.payload_le ceiling found)

theorem Comes.backlog_le (h : d.Comes c (.answered .incomplete) d')
    (ceiling : d.partitioner.HasCeiling max) : d'.buffer.length ≤ d.partitioner.backlog max := by
  cases h with
  | incomplete waits => exact Partitioner.backlog_le ceiling waits

end Decoder

end FrameIntake
