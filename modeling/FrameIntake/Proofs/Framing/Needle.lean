import FrameIntake.Proofs.Framing.Search
import FrameIntake.Proofs.Framing.Words

/-!
The search for a needle, as a machine makes it: byte by byte if the needle is one byte, and else window by
window. Either way it comes to the first place at which the needle can be cut out, and a search in vain is
gone on with where the needle may have begun (`find?_least`).
-/

namespace FrameIntake.Bytes

variable {needle hay front behind : Bytes} {i n : Nat}

/-- All runs of `n` bytes, from the front. Fewer bytes than that have none. -/
def windows (bs : Bytes) (n : Nat) : List Bytes :=
  (List.range (bs.length + 1 - n)).map fun i => (bs.drop i).take n

/-- Searches in the way that the size of the needle asks for. -/
def machineFind? : Bytes → Bytes → Option Nat
  | [], _ => some 0
  | [b], hay => hay.findIdx? (· == b)
  | needle, hay => (hay.windows needle.length).findIdx? (· == needle)

theorem length_windows (bs : Bytes) (n : Nat) : (bs.windows n).length = bs.length + 1 - n := by
  simp [windows]

theorem getElem_windows (bs : Bytes) (h : i < (bs.windows n).length) :
    (bs.windows n)[i] = (bs.drop i).take n := by
  simp [windows]

/-- A needle stands where it can be cut out. -/
theorem occursAt_iff_slice? :
    OccursAt needle hay i ↔ hay.slice? i (i + needle.length) = some needle := by
  constructor
  · intro h
    have hp := List.prefix_iff_eq_take.mp h.1
    rw [slice?_of_le (Nat.le_add_right i _) h.add_length_le, List.drop_take, Nat.add_sub_cancel_left,
      ← hp]
  · intro h
    unfold slice? at h
    split at h
    · rename_i within
      rw [List.drop_take, Nat.add_sub_cancel_left] at h
      exact ⟨List.prefix_iff_eq_take.mpr (Option.some.inj h).symm, by omega⟩
    · contradiction

theorem occursAt_iff_window (bs : Bytes) :
    OccursAt needle bs i ↔ ∃ h : i < (bs.windows needle.length).length,
      (bs.windows needle.length)[i] = needle := by
  constructor
  · intro h
    have hl := h.add_length_le
    have hi : i < (bs.windows needle.length).length := by
      rw [length_windows]
      omega
    exact ⟨hi, (getElem_windows bs hi).trans (List.prefix_iff_eq_take.mp h.1).symm⟩
  · rintro ⟨hi, hw⟩
    rw [getElem_windows bs hi] at hw
    rw [length_windows] at hi
    exact ⟨List.prefix_iff_eq_take.mpr hw.symm, by omega⟩

/-- The first window that is the needle stands where the needle is found. -/
theorem findIdx?_windows (needle hay : Bytes) :
    (hay.windows needle.length).findIdx? (· == needle) = find? needle hay := by
  apply Option.ext
  intro i
  rw [find?_eq_some_iff, List.findIdx?_eq_some_iff_getElem, occursAt_iff_window]
  simp only [beq_iff_eq]
  constructor
  · rintro ⟨hi, hw, hbefore⟩
    refine ⟨⟨hi, hw⟩, ?_⟩
    intro j hj ho
    obtain ⟨hj', hw'⟩ := (occursAt_iff_window hay).mp ho
    exact hbefore j hj hw'
  · rintro ⟨⟨hi, hw⟩, hbefore⟩
    refine ⟨hi, hw, ?_⟩
    intro j hj hw'
    exact hbefore j hj ((occursAt_iff_window hay).mpr ⟨Nat.lt_trans hj hi, hw'⟩)

/-- One byte is found where it is. -/
theorem findIdx?_byte (b : UInt8) (hay : Bytes) : hay.findIdx? (· == b) = find? [b] hay := by
  induction hay with
  | nil => rfl
  | cons a hay ih =>
    rw [List.findIdx?_cons, find?_cons, ih]
    have hfront : [b].isPrefixOf (a :: hay) = (a == b) := by
      simp [List.isPrefixOf, Bool.beq_comm]
    rw [hfront]
    cases a == b with
    | true => rfl
    | false => simp [Nat.add_comm]

theorem machineFind?_eq (needle hay : Bytes) : machineFind? needle hay = find? needle hay := by
  unfold machineFind?
  split
  · cases hay <;> rfl
  · exact findIdx?_byte _ _
  · exact findIdx?_windows _ _

/-- What was searched in vain need not be searched again, but for the bytes with which the needle may have
begun. -/
theorem find?_resume (nonempty : needle ≠ []) (vain : find? needle front = none) (behind : Bytes) :
    find? needle (front ++ behind) =
      (find? needle ((front ++ behind).drop (front.length - (needle.length - 1)))).map
        (front.length - (needle.length - 1) + ·) := by
  apply find?_drop
  · rw [List.length_append]
    omega
  · intro j hj
    exact not_occursAt_of_vain nonempty vain behind hj

/-- A needle is found at the first place where it can be cut out, and not found only if there is none. One byte
is sought as well byte by byte, and any needle window by window. Behind bytes that were searched in vain the
search goes on from where the needle may have begun. -/
theorem find?_least (needle : Bytes) :
    (∀ hay, machineFind? needle hay = find? needle hay ∧
      (hay.windows needle.length).findIdx? (· == needle) = find? needle hay ∧
      (∀ b, hay.findIdx? (· == b) = find? [b] hay) ∧
      (∀ i, find? needle hay = some i ↔
        hay.slice? i (i + needle.length) = some needle ∧
          ∀ j < i, hay.slice? j (j + needle.length) ≠ some needle) ∧
      (find? needle hay = none ↔ ∀ i, hay.slice? i (i + needle.length) ≠ some needle) ∧
      (hay.length < needle.length → find? needle hay = none)) ∧
    ∀ front behind, needle ≠ [] → find? needle front = none →
      let start := front.length - (needle.length - 1)
      find? needle (front ++ behind) =
        (find? needle ((front ++ behind).drop start)).map (start + ·) := by
  constructor
  · intro hay
    refine ⟨machineFind?_eq needle hay, findIdx?_windows needle hay, fun b => findIdx?_byte b hay,
      ?_, ?_, ?_⟩
    · intro i
      simp only [ne_eq, ← occursAt_iff_slice?]
      exact find?_eq_some_iff
    · simp only [ne_eq, ← occursAt_iff_slice?]
      exact find?_eq_none_iff
    · intro hl
      apply find?_eq_none_iff.mpr
      intro i ho
      have := ho.add_length_le
      omega
  · intro front behind nonempty vain
    exact find?_resume nonempty vain behind

/-- A needle that overlaps itself, cut behind a beginning that comes to nothing, and one that is too long. -/
theorem find?_least_overlapping :
    let needle : Bytes := [1, 1, 2]
    let front : Bytes := [7, 1, 1]
    let behind : Bytes := [1, 2]
    needle ≠ [] ∧ find? needle front = none ∧ find? needle (front ++ behind) = some 2 ∧
      find? needle (front ++ behind) = (find? needle ((front ++ behind).drop 1)).map (1 + ·) ∧
      (front ++ behind).slice? 2 (2 + needle.length) = some needle ∧
      behind.length < needle.length ∧ find? needle behind = none := by
  intro needle front behind
  obtain ⟨hsearch, hresume⟩ := find?_least needle
  have nonempty : needle ≠ [] := List.cons_ne_nil _ _
  have vain : find? needle front = none := by decide
  have found : find? needle (front ++ behind) = some 2 := by decide
  obtain ⟨_, _, _, hsome, _, _⟩ := hsearch (front ++ behind)
  obtain ⟨_, _, _, _, _, hshort⟩ := hsearch behind
  have short : behind.length < needle.length := by decide
  exact ⟨nonempty, vain, found, hresume front behind nonempty vain, ((hsome 2).mp found).1, short,
    hshort short⟩

end FrameIntake.Bytes
