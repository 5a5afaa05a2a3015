import FrameIntake.Host

/-!
What changes on a host when one file is put in place or removed: that location only. The ways of all
paths stay, since they go through directories, and none of those is removed or covered.
-/

namespace FrameIntake

/-- The number behind that of the listener that a socket belongs to. -/
def FileEntry.numberBehind : FileEntry → Nat
  | socket owner => owner + 1
  | _ => 0

namespace FileTree

/-- The tree afterwards is the tree before, but for what stands at one location. -/
structure Puts (t : FileTree) (location : Location) (what : Option FileEntry) (t' : FileTree) :
    Prop where
  home : t'.workingDirectory = t.workingDirectory
  get? : ∀ other, t'.get? other = if other = location then what else t.get? other

theorem lookup_filter_ne (entries : List (Location × FileEntry)) (gone location : Location) :
    (entries.filter fun (l, _) => l != gone).lookup location =
      if location = gone then none else entries.lookup location := by
  induction entries with
  | nil => simp
  | cons e rest ih =>
    obtain ⟨l, entry⟩ := e
    by_cases removed : l = gone
    · rw [List.filter_cons_of_neg (by simp [removed]), ih]
      by_cases here : location = gone
      · rw [if_pos here, if_pos here]
      · have other : (location == l) = false := by simpa [removed] using here
        rw [if_neg here, if_neg here, List.lookup_cons, other]
    · rw [List.filter_cons_of_pos (by simp [removed]), List.lookup_cons, List.lookup_cons, ih]
      cases same : location == l with
      | true =>
        have kept : location ≠ gone := eq_of_beq same ▸ removed
        simp [kept]
      | false => rfl

/-- Everything but the directories can be removed. -/
theorem puts_erase {t : FileTree} {location : Location}
    (free : t.get? location ≠ some .directory) : t.Puts location none (t.erase location) := by
  refine ⟨rfl, fun other => ?_⟩
  have outside : ¬ location.isPrefixOf t.workingDirectory := fun above =>
    free (by rw [FileTree.get?, if_pos above])
  simp only [FileTree.get?, erase, lookup_filter_ne]
  by_cases same : other = location
  · simp [same, outside]
  · simp [same]

theorem puts_insert {t : FileTree} {location : Location} (entry : FileEntry)
    (free : t.get? location ≠ some .directory) :
    t.Puts location (some entry) (t.insert location entry) := by
  refine ⟨rfl, fun other => ?_⟩
  have outside : ¬ location.isPrefixOf t.workingDirectory := fun above =>
    free (by rw [FileTree.get?, if_pos above])
  simp only [FileTree.get?, insert, erase, List.lookup_cons, lookup_filter_ne]
  by_cases same : other = location
  · simp [same, outside]
  · have elsewhere : (other == location) = false := by simpa using same
    simp [same, elsewhere]

namespace Puts

variable {t t' t'' : FileTree} {location : Location} {what later : Option FileEntry}

theorem get?_self (puts : t.Puts location what t') : t'.get? location = what := by
  simp [puts.get?]

theorem get?_of_ne (puts : t.Puts location what t') {other : Location} (h : other ≠ location) :
    t'.get? other = t.get? other := by
  simp [puts.get?, h]

/-- Of two entries that are put at one location the second one stays. -/
theorem trans (first : t.Puts location what t') (second : t'.Puts location later t'') :
    t.Puts location later t'' := by
  refine ⟨second.home.trans first.home, fun other => ?_⟩
  rw [second.get?, first.get?]
  split <;> rfl

/-- A name is looked up in a directory, so a way through the tree stays while the directories do. -/
theorem follow (puts : t.Puts location what t') (free : t.get? location ≠ some .directory)
    {here there : Location} {names : List String} (h : t.follow here names = .ok there) :
    t'.follow here names = .ok there := by
  induction names generalizing here with
  | nil => exact h
  | cons name rest ih =>
    have directory := FileTree.get?_of_follow h
    have stays : t'.get? here = some .directory := by
      rw [puts.get?_of_ne fun same => free (same ▸ directory)]
      exact directory
    rw [FileTree.follow, directory] at h
    rw [FileTree.follow, stays]
    simp only at h ⊢
    split
    · next long => rw [if_pos long] at h; contradiction
    · next short => rw [if_neg short] at h; exact ih h

theorem locate (puts : t.Puts location what t') (free : t.get? location ≠ some .directory)
    {path : FilePath} {there : Location} (h : t.locate path = .ok there) :
    t'.locate path = .ok there := by
  unfold FileTree.locate at h ⊢
  rw [puts.home]
  exact puts.follow free h

end Puts

/-- A number that the sockets of the tree do not reach: none of their listeners has it or a later one. -/
def freshNumber (t : FileTree) : Nat := t.entries.foldr (fun e n => max e.2.numberBehind n) 0

theorem owner_lt_freshNumber {t : FileTree} {location : Location} {owner : Nat}
    (h : t.get? location = some (.socket owner)) : owner < t.freshNumber := by
  have listed : t.entries.lookup location = some (.socket owner) := by
    unfold FileTree.get? at h
    split at h
    · cases h
    · exact h
  unfold freshNumber
  generalize t.entries = entries at listed
  induction entries with
  | nil => contradiction
  | cons e rest ih =>
    obtain ⟨l, entry⟩ := e
    rw [List.lookup_cons] at listed
    rw [List.foldr_cons]
    split at listed
    · obtain rfl := Option.some.inj listed
      simp only [FileEntry.numberBehind]
      omega
    · have := ih listed
      omega

end FileTree

namespace Host

variable {h : Host} {path : String} {location : Location} {entry : FileEntry}

/-- Where a path leads. -/
def locateFile (h : Host) (path : String) : Except IoError Location := do
  h.files.locate (← FilePath.parse path)

theorem lookupFile_eq (h : Host) (path : String) :
    h.lookupFile path =
      (h.locateFile path).bind fun location =>
        (h.files.get? location).elim (.error .noSuchFile) .ok := by
  unfold lookupFile locateFile
  cases FilePath.parse path with
  | error e => rfl
  | ok p => rfl

/-- A path finds what stands where it leads. -/
theorem lookupFile_eq_ok_iff :
    h.lookupFile path = .ok entry ↔
      ∃ location, h.locateFile path = .ok location ∧ h.files.get? location = some entry := by
  rw [lookupFile_eq]
  cases h.locateFile path with
  | error e => simp [Except.bind]
  | ok location =>
    simp only [Except.bind, Except.ok.injEq, exists_eq_left']
    cases h.files.get? location <;> simp

/-- A path leads where it led, whatever is put in place of something that is no directory. -/
theorem locateFile_of_puts {h' : Host} {changed there : Location} {what : Option FileEntry}
    (puts : h.files.Puts changed what h'.files) (free : h.files.get? changed ≠ some .directory)
    (leads : h.locateFile path = .ok there) : h'.locateFile path = .ok there := by
  unfold locateFile at leads ⊢
  cases parsed : FilePath.parse path with
  | error e =>
    rw [parsed] at leads
    contradiction
  | ok p =>
    rw [parsed] at leads
    exact puts.locate free leads

theorem removeFile_eq (leads : h.locateFile path = .ok location)
    (stood : h.files.get? location = some entry) (file : entry ≠ .directory) :
    h.removeFile path = .ok { h with files := h.files.erase location } := by
  unfold locateFile at leads
  unfold removeFile FileTree.remove FileTree.lookup
  cases parsed : FilePath.parse path with
  | error e => simp [parsed, bind, Except.bind] at leads
  | ok p =>
    simp only [parsed, bind, Except.bind] at leads ⊢
    simp only [leads, stood, Option.elim_some]

/-- A socket is made where nothing stands. -/
theorem createSocket_eq_ok {number : Nat} {h' : Host} (made : h.createSocket number path = .ok h') :
    ∃ location, h.locateFile path = .ok location ∧ h.files.get? location = none ∧
      h' = { h with files := h.files.insert location (.socket number) } := by
  unfold createSocket FileTree.create at made
  unfold locateFile
  split at made
  · contradiction
  cases parsed : FilePath.parse path with
  | error e =>
    rw [parsed] at made
    contradiction
  | ok p =>
    simp only [parsed, bind, Except.bind] at made ⊢
    cases located : h.files.locate p with
    | error e => simp [located] at made
    | ok location =>
      simp only [located] at made
      cases stands : h.files.get? location with
      | some entry => simp [stands] at made
      | none =>
        simp only [stands, Except.ok.injEq] at made
        exact ⟨location, rfl, stands, made.symm⟩

end Host

end FrameIntake
