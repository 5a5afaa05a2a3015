/-!
Byte strings and the search for a needle in one. `find?` answers with the least position at which the
needle stands: `occursAt_of_find?` says that it stands there, `find?_le_of_occursAt` that no position
before it does.
-/

namespace FrameIntake

abbrev Bytes := List UInt8

/-- Lengths and positions are words of 64 bits, so they stay below this. -/
def wordLimit : Nat := 18446744073709551616

namespace Bytes

def isDigit (b : UInt8) : Bool := 48 ≤ b && b ≤ 57

/-- The number a run of decimal digits denotes, most significant digit first. -/
def decimal (digits : Bytes) : Nat :=
  digits.foldl (fun n b => 10 * n + (b.toNat - 48)) 0

/-- Fewer than `n` bytes. No more than `n` are looked at. -/
def isShorterThan (bs : Bytes) (n : Nat) : Bool := (bs.take n).length < n

@[simp] theorem isShorterThan_iff {bs : Bytes} {n : Nat} : isShorterThan bs n ↔ bs.length < n := by
  simp only [isShorterThan, List.length_take, decide_eq_true_eq]
  omega

/-- States that `needle` stands in `hay` at position `i`. -/
def OccursAt (needle hay : Bytes) (i : Nat) : Prop := needle <+: hay.drop i ∧ i ≤ hay.length

/-- Tries `base`, `base + 1`, … as the position of the first byte of `hay`. -/
def findFrom (needle : Bytes) (base : Nat) : Bytes → Option Nat
  | [] => if needle.isEmpty then some base else none
  | b :: rest =>
    if needle.isPrefixOf (b :: rest) then some base else findFrom needle (base + 1) rest

/-- The first position at which `needle` occurs in `hay`. -/
def find? (needle hay : Bytes) : Option Nat := findFrom needle 0 hay

theorem findFrom_eq_map (needle : Bytes) (base : Nat) (hay : Bytes) :
    findFrom needle base hay = (find? needle hay).map (base + ·) := by
  unfold find?
  induction hay generalizing base with
  | nil => by_cases h : needle.isEmpty <;> simp [findFrom, h]
  | cons b rest ih =>
    by_cases h : needle.isPrefixOf (b :: rest)
    · simp [findFrom, h]
    · simp only [findFrom, h, Bool.false_eq_true, if_false]
      rw [ih (base + 1), ih 1, Option.map_map]
      congr 1
      funext i
      simp; omega

theorem find?_nil (needle : Bytes) : find? needle [] = if needle.isEmpty then some 0 else none := rfl

theorem find?_cons (needle : Bytes) (b : UInt8) (rest : Bytes) :
    find? needle (b :: rest) =
      if needle.isPrefixOf (b :: rest) then some 0 else (find? needle rest).map (1 + ·) := by
  by_cases h : needle.isPrefixOf (b :: rest)
  · simp [find?, findFrom, h]
  · simp [find?, findFrom, h, findFrom_eq_map needle 1]

theorem occursAt_of_find? {needle hay : Bytes} {i : Nat} (h : find? needle hay = some i) :
    OccursAt needle hay i := by
  induction hay generalizing i with
  | nil =>
    rw [find?_nil] at h
    split at h
    · obtain rfl := Option.some.inj h
      exact ⟨by simp_all, Nat.le_refl _⟩
    · contradiction
  | cons b rest ih =>
    rw [find?_cons] at h
    split at h
    · obtain rfl := Option.some.inj h
      exact ⟨by simpa using List.isPrefixOf_iff_prefix.mp ‹_›, Nat.zero_le _⟩
    · obtain ⟨j, hj, rfl⟩ := Option.map_eq_some_iff.mp h
      have ⟨hp, hl⟩ := ih hj
      exact ⟨by simpa [Nat.add_comm 1 j] using hp, by simp; omega⟩

theorem find?_le_of_occursAt {needle hay : Bytes} {i : Nat} (h : OccursAt needle hay i) :
    ∃ j, find? needle hay = some j ∧ j ≤ i := by
  induction hay generalizing i with
  | nil =>
    have : needle = [] := by simpa using h.1
    subst this
    exact ⟨0, rfl, Nat.zero_le _⟩
  | cons b rest ih =>
    rw [find?_cons]
    split
    · exact ⟨0, rfl, Nat.zero_le _⟩
    · rename_i hn
      cases i with
      | zero => exact absurd (List.isPrefixOf_iff_prefix.mpr (by simpa using h.1)) hn
      | succ i =>
        obtain ⟨j, hj, hle⟩ := ih ⟨by simpa using h.1, by simpa using h.2⟩
        exact ⟨1 + j, by simp [hj], by omega⟩

theorem find?_add_length_le {needle hay : Bytes} {i : Nat} (h : find? needle hay = some i) :
    i + needle.length ≤ hay.length := by
  have ⟨hp, hl⟩ := occursAt_of_find? h
  have := hp.length_le
  simp at this
  omega

end Bytes

end FrameIntake
