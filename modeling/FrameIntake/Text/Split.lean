/-!
Splitting a text at the first occurrence of a mark, and at the last or at every occurrence of a
character.
-/

namespace FrameIntake.Text

/-- What stands before the first `mark` and behind it. -/
def splitFirst? (mark : List Char) : List Char → Option (List Char × List Char)
  | [] => none
  | c :: rest =>
    if mark.isPrefixOf (c :: rest) then some ([], (c :: rest).drop mark.length)
    else (splitFirst? mark rest).map fun (before, behind) => (c :: before, behind)

/-- What stands before the last `mark` and behind it. -/
def splitLast? (mark : Char) : List Char → Option (List Char × List Char)
  | [] => none
  | c :: rest =>
    match splitLast? mark rest with
    | some (before, behind) => some (c :: before, behind)
    | none => if c = mark then some ([], rest) else none

/-- The parts between all occurrences of `mark`. -/
def splitAll (mark : Char) : List Char → List (List Char)
  | [] => [[]]
  | c :: rest =>
    if c = mark then [] :: splitAll mark rest
    else
      match splitAll mark rest with
      | [] => [[c]]
      | part :: parts => (c :: part) :: parts

theorem splitFirst?_append {mark cs before behind : List Char}
    (h : splitFirst? mark cs = some (before, behind)) : cs = before ++ mark ++ behind := by
  induction cs generalizing before with
  | nil => contradiction
  | cons c rest ih =>
    rw [splitFirst?] at h
    split at h
    · rename_i hp
      obtain ⟨rfl, rfl⟩ := Prod.mk.inj (Option.some.inj h)
      exact (List.prefix_iff_eq_append.mp (List.isPrefixOf_iff_prefix.mp hp)).symm
    · obtain ⟨⟨a, b⟩, hr, he⟩ := Option.map_eq_some_iff.mp h
      obtain ⟨rfl, rfl⟩ := Prod.mk.inj he
      simp [ih hr]

theorem splitLast?_append {mark : Char} {cs before behind : List Char}
    (h : splitLast? mark cs = some (before, behind)) :
    cs = before ++ mark :: behind ∧ mark ∉ behind := by
  induction cs generalizing before behind with
  | nil => contradiction
  | cons c rest ih =>
    rw [splitLast?] at h
    split at h
    · rename_i a b hr
      obtain ⟨rfl, rfl⟩ := Prod.mk.inj (Option.some.inj h)
      obtain ⟨rfl, hn⟩ := ih hr
      exact ⟨rfl, hn⟩
    · rename_i hr
      split at h
      · obtain ⟨rfl, rfl⟩ := Prod.mk.inj (Option.some.inj h)
        rename_i hc
        refine ⟨by simp [hc], ?_⟩
        clear ih h
        induction rest with
        | nil => simp
        | cons d rest ih =>
          rw [splitLast?] at hr
          split at hr
          · contradiction
          · rename_i hr'
            split at hr
            · contradiction
            · simp_all [Ne.symm]
      · contradiction

end FrameIntake.Text
