import FrameIntake.Text.Split

/-!
What the splitting of a text comes to, said without a search: the mark stands between the two parts, and nowhere
before them (`splitFirst?_eq_some_iff`), or nowhere behind (`splitLast?_eq_some_iff`).
-/

namespace FrameIntake.Text

section First

variable {mark cs before behind : List Char}

/-- `mark` stands between `before` and `behind`, and nowhere closer to the front. -/
structure SplitsFirst (mark cs before behind : List Char) : Prop where
  joined : cs = before ++ mark ++ behind
  first : ∀ before' behind', cs = before' ++ mark ++ behind' → before.length ≤ before'.length

theorem SplitsFirst.unique {before' behind' : List Char} (h : SplitsFirst mark cs before behind)
    (h' : SplitsFirst mark cs before' behind') : before = before' ∧ behind = behind' := by
  have hlength : before.length = before'.length :=
    Nat.le_antisymm (h.first _ _ h'.joined) (h'.first _ _ h.joined)
  have hjoined := h.joined.symm.trans h'.joined
  rw [List.append_assoc, List.append_assoc] at hjoined
  obtain ⟨hbefore, hrest⟩ := List.append_inj hjoined hlength
  exact ⟨hbefore, List.append_cancel_left hrest⟩

/-- A mark that does not stand at the front of a text stands in what is behind its first character. -/
theorem split_cons {c : Char} {rest : List Char} (hfront : ¬ mark.isPrefixOf (c :: rest))
    (h : c :: rest = before ++ mark ++ behind) : ∃ front, before = c :: front ∧ rest = front ++ mark ++ behind := by
  cases before with
  | nil =>
    rw [List.isPrefixOf_iff_prefix] at hfront
    exact absurd ⟨behind, h.symm⟩ hfront
  | cons d front =>
    obtain ⟨rfl, hrest⟩ := List.cons.inj h
    exact ⟨front, rfl, hrest⟩

theorem splitsFirst_of_splitFirst? (h : splitFirst? mark cs = some (before, behind)) :
    SplitsFirst mark cs before behind := by
  refine ⟨splitFirst?_append h, ?_⟩
  induction cs generalizing before with
  | nil => contradiction
  | cons c rest ih =>
    rw [splitFirst?] at h
    split at h
    · obtain ⟨rfl, -⟩ := Prod.mk.inj (Option.some.inj h)
      exact fun _ _ _ => Nat.zero_le _
    · rename_i hfront
      obtain ⟨⟨a, b⟩, hr, he⟩ := Option.map_eq_some_iff.mp h
      obtain ⟨rfl, rfl⟩ := Prod.mk.inj he
      intro before' behind' hjoined
      obtain ⟨front, rfl, hrest⟩ := split_cons hfront hjoined
      exact Nat.succ_le_succ (ih hr front behind' hrest)

theorem not_joined_of_splitFirst? (hmark : mark ≠ []) (h : splitFirst? mark cs = none) :
    cs ≠ before ++ mark ++ behind := by
  induction cs generalizing before with
  | nil => simp [hmark]
  | cons c rest ih =>
    rw [splitFirst?] at h
    split at h
    · contradiction
    · rename_i hfront
      intro hjoined
      obtain ⟨front, rfl, hrest⟩ := split_cons hfront hjoined
      exact ih (Option.map_eq_none_iff.mp h) hrest

theorem splitFirst?_eq_none_iff (hmark : mark ≠ []) :
    splitFirst? mark cs = none ↔ ∀ before behind, cs ≠ before ++ mark ++ behind := by
  constructor
  · intro h before behind
    exact not_joined_of_splitFirst? hmark h
  · intro h
    cases hs : splitFirst? mark cs with
    | none => rfl
    | some parts => exact absurd (splitFirst?_append hs) (h _ _)

theorem splitFirst?_eq_some_iff (hmark : mark ≠ []) :
    splitFirst? mark cs = some (before, behind) ↔ SplitsFirst mark cs before behind := by
  constructor
  · exact splitsFirst_of_splitFirst?
  · intro h
    cases hs : splitFirst? mark cs with
    | none => exact absurd h.joined (not_joined_of_splitFirst? hmark hs)
    | some parts =>
      obtain ⟨rfl, rfl⟩ := h.unique (splitsFirst_of_splitFirst? hs)
      rfl

/-- A mark stands first where nothing before it begins as it does. -/
theorem splitsFirst_of_not_mem {c : Char} {ending : List Char} (h : c ∉ before) :
    SplitsFirst (c :: ending) (before ++ c :: ending ++ behind) before behind := by
  refine ⟨rfl, ?_⟩
  induction before with
  | nil => exact fun _ _ _ => Nat.zero_le _
  | cons d before ih =>
    rw [List.mem_cons, not_or] at h
    intro before' behind' hjoined
    cases before' with
    | nil => exact absurd (List.cons.inj hjoined).1.symm h.1
    | cons d' before' => exact Nat.succ_le_succ (ih h.2 before' behind' (List.cons.inj hjoined).2)

end First

section Last

variable {mark : Char} {cs before behind : List Char}

theorem splitLast?_of_not_mem (h : mark ∉ cs) : splitLast? mark cs = none := by
  induction cs with
  | nil => rfl
  | cons c rest ih =>
    rw [List.mem_cons, not_or] at h
    rw [splitLast?, ih h.2]
    exact if_neg (Ne.symm h.1)

theorem splitLast?_eq_some_iff :
    splitLast? mark cs = some (before, behind) ↔ cs = before ++ mark :: behind ∧ mark ∉ behind := by
  constructor
  · exact splitLast?_append
  · rintro ⟨rfl, hbehind⟩
    induction before with
    | nil =>
      rw [List.nil_append, splitLast?, splitLast?_of_not_mem hbehind]
      exact if_pos rfl
    | cons c before ih => rw [List.cons_append, splitLast?, ih]

end Last

end FrameIntake.Text
