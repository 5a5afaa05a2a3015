import FrameIntake.Bytes

/-!
Where a needle occurs in a byte string that grows. What stands in a beginning stands in the whole, and
what is new in the whole ends behind the beginning.
-/

namespace FrameIntake.Bytes

variable {needle hay more : Bytes} {i k : Nat}

theorem OccursAt.add_length_le (h : OccursAt needle hay i) : i + needle.length ≤ hay.length := by
  obtain ⟨hp, hl⟩ := h
  have := hp.length_le
  rw [List.length_drop] at this
  omega

theorem OccursAt.append (h : OccursAt needle hay i) (more : Bytes) :
    OccursAt needle (hay ++ more) i := by
  obtain ⟨hp, hl⟩ := h
  refine ⟨?_, by rw [List.length_append]; omega⟩
  rw [List.drop_append_of_le_length hl]
  exact hp.trans (List.prefix_append _ _)

/-- An occurrence that ends in the beginning is one of the beginning. -/
theorem OccursAt.of_append (h : OccursAt needle (hay ++ more) i)
    (hl : i + needle.length ≤ hay.length) : OccursAt needle hay i := by
  refine ⟨?_, by omega⟩
  have hp := h.1
  rw [List.drop_append_of_le_length (by omega)] at hp
  exact List.prefix_of_prefix_length_le hp (List.prefix_append _ _) (by rw [List.length_drop]; omega)

theorem occursAt_drop_iff (hk : k ≤ hay.length) :
    OccursAt needle (hay.drop k) i ↔ OccursAt needle hay (k + i) := by
  unfold OccursAt
  rw [List.drop_drop, List.length_drop]
  constructor
  · rintro ⟨hp, hl⟩
    exact ⟨hp, by omega⟩
  · rintro ⟨hp, hl⟩
    exact ⟨hp, by omega⟩

theorem find?_eq_some_iff :
    find? needle hay = some i ↔ OccursAt needle hay i ∧ ∀ j < i, ¬OccursAt needle hay j := by
  constructor
  · intro h
    refine ⟨occursAt_of_find? h, ?_⟩
    intro j hj ho
    obtain ⟨least, hf, hle⟩ := find?_le_of_occursAt ho
    have := Option.some.inj (h.symm.trans hf)
    omega
  · rintro ⟨ho, hleast⟩
    obtain ⟨least, hf, hle⟩ := find?_le_of_occursAt ho
    have hn : ¬least < i := fun hlt => hleast least hlt (occursAt_of_find? hf)
    rw [hf, show least = i by omega]

theorem find?_eq_none_iff : find? needle hay = none ↔ ∀ i, ¬OccursAt needle hay i := by
  constructor
  · intro h i ho
    obtain ⟨least, hf, _⟩ := find?_le_of_occursAt ho
    rw [h] at hf
    contradiction
  · intro h
    cases hf : find? needle hay with
    | none => rfl
    | some i => exact absurd (occursAt_of_find? hf) (h i)

/-- What was found is found again when more bytes follow. -/
theorem find?_append_of_some (h : find? needle hay = some i) (more : Bytes) :
    find? needle (hay ++ more) = some i := by
  obtain ⟨ho, hleast⟩ := find?_eq_some_iff.mp h
  refine find?_eq_some_iff.mpr ⟨ho.append more, ?_⟩
  intro j hj hn
  have := ho.add_length_le
  exact hleast j hj (hn.of_append (by omega))

/-- What is found only with the bytes that follow ends among them. -/
theorem lt_of_find?_append (hn : find? needle hay = none)
    (h : find? needle (hay ++ more) = some i) : hay.length < i + needle.length := by
  rcases Nat.lt_or_ge hay.length (i + needle.length) with hlt | hge
  · exact hlt
  · exact absurd ((occursAt_of_find? h).of_append hge) (find?_eq_none_iff.mp hn i)

/-- Bytes that were searched in vain hold the needle nowhere, whatever follows, but for the last of them, with
which it may have begun. -/
theorem not_occursAt_of_vain (nonempty : needle ≠ []) (vain : find? needle hay = none) (more : Bytes)
    (hi : i < hay.length - (needle.length - 1)) : ¬OccursAt needle (hay ++ more) i := by
  have hpos := List.length_pos_iff.mpr nonempty
  intro ho
  exact find?_eq_none_iff.mp vain i (ho.of_append (by omega))

/-- A search may begin behind positions at which the needle does not occur. -/
theorem find?_drop (hk : k ≤ hay.length) (h : ∀ j < k, ¬OccursAt needle hay j) :
    find? needle hay = (find? needle (hay.drop k)).map (k + ·) := by
  cases hf : find? needle (hay.drop k) with
  | none =>
    apply find?_eq_none_iff.mpr
    intro i ho
    rcases Nat.lt_or_ge i k with hi | hi
    · exact h i hi ho
    · obtain ⟨j, rfl⟩ := Nat.exists_eq_add_of_le hi
      exact find?_eq_none_iff.mp hf j ((occursAt_drop_iff hk).mpr ho)
  | some i =>
    obtain ⟨ho, hleast⟩ := find?_eq_some_iff.mp hf
    refine find?_eq_some_iff.mpr ⟨(occursAt_drop_iff hk).mp ho, ?_⟩
    intro j hj hn
    rcases Nat.lt_or_ge j k with hjk | hjk
    · exact h j hjk hn
    · obtain ⟨l, rfl⟩ := Nat.exists_eq_add_of_le hjk
      exact hleast l (Nat.lt_of_add_lt_add_left hj) ((occursAt_drop_iff hk).mpr hn)

end FrameIntake.Bytes
