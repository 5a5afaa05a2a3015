import FrameIntake.Listener
import FrameIntake.Proofs.Host.Files
import Mathlib.Data.List.Nodup

/-!
Listeners that are bound to paths of one host and released again, in any order. A path is cleared of any
socket that stands there, also of one whose listener is still bound, and a release removes whatever
stands at its path. So every listener keeps its socket, and removes no other, exactly if nobody binds a
path where the socket of a bound listener stands.
-/

namespace FrameIntake

namespace Listener

open FileTree (Puts)

variable {h h' : Host} {number : Nat} {path : String} {l : Listener} {location other : Location}

/-- The listener's path leads to its socket. -/
structure StandsAt (l : Listener) (h : Host) (location : Location) : Prop where
  leads : ∃ path, l.endpoint = .unix path ∧ h.locateFile path = .ok location
  stands : h.files.get? location = some (.socket l.number)

theorem StandsAt.isReachable (s : l.StandsAt h location) : l.isReachable h = true := by
  obtain ⟨path, endpoint, leads⟩ := s.leads
  have found := Host.lookupFile_eq_ok_iff.mpr ⟨location, leads, s.stands⟩
  simp [Listener.isReachable, endpoint, found]

theorem StandsAt.unique (s : l.StandsAt h location) (s' : l.StandsAt h other) :
    location = other := by
  obtain ⟨path, endpoint, leads⟩ := s.leads
  obtain ⟨path', endpoint', leads'⟩ := s'.leads
  obtain rfl : path = path' := by simpa using endpoint.symm.trans endpoint'
  exact Except.ok.inj (leads.symm.trans leads')

/-- What happens elsewhere in the tree does not reach the socket. -/
theorem StandsAt.puts {what : Option FileEntry} (s : l.StandsAt h location)
    (puts : h.files.Puts other what h'.files) (free : h.files.get? other ≠ some .directory)
    (elsewhere : location ≠ other) : l.StandsAt h' location := by
  obtain ⟨path, endpoint, leads⟩ := s.leads
  exact ⟨⟨path, endpoint, Host.locateFile_of_puts puts free leads⟩, (puts.get?_of_ne elsewhere).trans s.stands⟩

/-- What an attempt to bind a path comes to. -/
inductive BindsTo (number : Nat) (path : String) (h : Host) (a : Attempt Listener) : Prop
  | refused (e : IoError) (failed : a.result = .error e) (unchanged : a.host = h)
      (unmet : ∀ owner, h.lookupFile path ≠ .ok (.socket owner))
  /-- A socket is cleared away, but then no new one can be made. -/
  | cleared (location : Location) (owner : Nat) (e : IoError) (leads : h.locateFile path = .ok location)
      (stood : h.files.get? location = some (.socket owner))
      (puts : h.files.Puts location none a.host.files) (failed : a.result = .error e)
  | made (location : Location) (leads : h.locateFile path = .ok location)
      (stood : h.files.get? location = none ∨ ∃ owner, h.files.get? location = some (.socket owner))
      (puts : h.files.Puts location (some (.socket number)) a.host.files)
      (bound : a.result = .ok ⟨number, .unix path⟩)

/-- Nothing but a socket is cleared away. -/
theorem clearPath_refuses {entry : FileEntry} (found : h.lookupFile path = .ok entry)
    (other : entry.isSocket = false) :
    clearPath path h = { result := .error (notASocket path), host := h } := by
  simp [clearPath, found, other]

theorem clearPath_clears {owner : Nat} (leads : h.locateFile path = .ok location)
    (stood : h.files.get? location = some (.socket owner)) :
    clearPath path h =
      { result := .ok (), host := { h with files := h.files.erase location },
        notices := [.staleSocketRemoved path] } := by
  have found := Host.lookupFile_eq_ok_iff.mpr ⟨location, leads, stood⟩
  have removed := Host.removeFile_eq leads stood (by simp)
  simp [clearPath, found, FileEntry.isSocket, removed]

theorem createSocket_cases (number : Nat) (path : String) (h : Host) :
    (∃ e, createSocket number path h = { result := .error e, host := h }) ∨
      ∃ location, h.locateFile path = .ok location ∧ h.files.get? location = none ∧
        h.files.Puts location (some (.socket number)) (createSocket number path h).host.files ∧
        (createSocket number path h).result = .ok ⟨number, .unix path⟩ := by
  unfold createSocket
  cases made : h.createSocket number path with
  | error e => exact .inl ⟨e, rfl⟩
  | ok h' =>
    obtain ⟨location, leads, free, rfl⟩ := Host.createSocket_eq_ok made
    exact .inr ⟨location, leads, free, FileTree.puts_insert _ (by simp [free]), rfl⟩

theorem bindUnix_of_socket (number : Nat) {owner : Nat} (leads : h.locateFile path = .ok location)
    (stood : h.files.get? location = some (.socket owner)) :
    BindsTo number path h (bindUnix number path h) := by
  have free : h.files.get? location ≠ some .directory := by simp [stood]
  have erased := FileTree.puts_erase free
  unfold bindUnix
  simp only [clearPath_clears leads stood]
  rcases createSocket_cases number path { h with files := h.files.erase location } with
    ⟨e, failed⟩ | ⟨there, leads', -, puts, bound⟩
  · rw [failed]
    exact .cleared location owner e leads stood erased rfl
  · have same : there = location := by
      rw [Host.locateFile_of_puts erased free leads] at leads'
      exact (Except.ok.inj leads').symm
    subst same
    exact .made there leads (.inr ⟨owner, stood⟩) (erased.trans puts) bound

theorem bindUnix_bindsTo (number : Nat) (path : String) (h : Host) :
    BindsTo number path h (bindUnix number path h) := by
  cases found : h.lookupFile path with
  | error e =>
    have unmet : ∀ owner, h.lookupFile path ≠ .ok (.socket owner) := by simp [found]
    unfold bindUnix
    by_cases absent : e.kind = .notFound
    · have cleared : clearPath path h = { result := .ok (), host := h } := by
        simp [clearPath, found, absent]
      simp only [cleared]
      rcases createSocket_cases number path h with ⟨e, failed⟩ | ⟨location, leads, free, puts, bound⟩
      · rw [failed]
        exact .refused e rfl rfl unmet
      · exact .made location leads (.inl free) puts bound
    · have kept : clearPath path h = { result := .error e, host := h } := by
        simp [clearPath, found, absent]
      rw [kept]
      exact .refused e rfl rfl unmet
  | ok entry =>
    cases entry with
    | socket owner =>
      obtain ⟨location, leads, stood⟩ := Host.lookupFile_eq_ok_iff.mp found
      exact bindUnix_of_socket number leads stood
    | file content =>
      unfold bindUnix
      rw [clearPath_refuses found rfl]
      exact .refused _ rfl rfl (by simp [found])
    | directory =>
      unfold bindUnix
      rw [clearPath_refuses found rfl]
      exact .refused _ rfl rfl (by simp [found])

/-- The notice of a failure changes neither what came of the attempt nor the host. -/
theorem bind_unix (number : Nat) (path : String) (h : Host) :
    (bind number (.unix path) h).result = (bindUnix number path h).result ∧
      (bind number (.unix path) h).host = (bindUnix number path h).host := by
  simp only [bind]
  split <;> exact ⟨rfl, rfl⟩

theorem bind_bindsTo (number : Nat) (path : String) (h : Host) :
    BindsTo number path h (bind number (.unix path) h) := by
  obtain ⟨result, host⟩ := bind_unix number path h
  cases bindUnix_bindsTo number path h with
  | refused e failed unchanged unmet =>
    exact .refused e (result.trans failed) (host.trans unchanged) unmet
  | cleared location owner e leads stood puts failed =>
    exact .cleared location owner e leads stood (host ▸ puts) (result.trans failed)
  | made location leads stood puts bound =>
    exact .made location leads stood (host ▸ puts) (result.trans bound)

/-- Where something else than a socket stands, nothing is bound and nothing changes. -/
theorem bind_refuses {entry : FileEntry} (number : Nat) (found : h.lookupFile path = .ok entry)
    (other : entry.isSocket = false) :
    (bind number (.unix path) h).result = .error (notASocket path) ∧
      (bind number (.unix path) h).host = h := by
  obtain ⟨result, host⟩ := bind_unix number path h
  rw [result, host]
  unfold bindUnix
  rw [clearPath_refuses found other]
  exact ⟨rfl, rfl⟩

/-- A listener that still has its socket takes it away, and nothing else. -/
theorem StandsAt.release (s : l.StandsAt h location) :
    h.files.Puts location none (l.release h).1.files := by
  obtain ⟨path, endpoint, leads⟩ := s.leads
  have removed := Host.removeFile_eq leads s.stands (by simp)
  simp only [Listener.release, endpoint, removed]
  exact FileTree.puts_erase (by simp [s.stands])

end Listener

/-- Listeners on one host, and the paths they are bound to. -/
structure Tenancy where
  host : Host
  /-- Those that are bound and not yet released. -/
  bound : List Listener := []
  /-- The number of the next one. -/
  next : Nat

namespace Tenancy

inductive Move
  | bind (path : String)
  | release (number : Nat)
  deriving DecidableEq, Repr

/-- Nobody is bound, and the sockets on the host are those of listeners that are gone. -/
def opened (h : Host) : Tenancy := { host := h, next := h.files.freshNumber }

def attempt (t : Tenancy) (path : String) : Attempt Listener :=
  Listener.bind t.next (.unix path) t.host

def act (t : Tenancy) : Move → Tenancy
  | .bind path =>
    { host := (t.attempt path).host
      bound := t.bound ++ (t.attempt path).result.toOption.toList
      next := t.next + 1 }
  | .release number =>
    match t.bound.find? (·.number == number) with
    | none => t
    | some l =>
      { t with host := (l.release t.host).1, bound := t.bound.filter (·.number != number) }

/-- Whose sockets are where, when those below `first` are older than the tenancy. -/
structure Standing (first : Nat) (t : Tenancy) : Prop where
  /-- Every bound listener still has its socket. -/
  placed : ∀ l ∈ t.bound, ∃ location, l.StandsAt t.host location
  /-- Once all are released none of their sockets remains. -/
  owned : ∀ location owner, t.host.files.get? location = some (.socket owner) →
    owner < first ∨ ∃ l ∈ t.bound, l.number = owner ∧ l.StandsAt t.host location

def IsGone (t : Tenancy) (number : Nat) : Prop := ∀ l ∈ t.bound, l.number ≠ number

/-- Nobody loses what is his own. -/
def Fair (t : Tenancy) : Move → Prop
  | .bind path =>
    (∀ entry, t.host.lookupFile path = .ok entry → entry.isSocket = false →
      (t.attempt path).result = .error (Listener.notASocket path) ∧
        (t.attempt path).host = t.host) ∧
    ∀ location entry, t.host.files.get? location = some entry →
      (t.attempt path).host.files.get? location = some entry ∨
        ∃ owner, entry = .socket owner ∧ t.IsGone owner
  | .release number =>
    ∀ location entry, t.host.files.get? location = some entry →
      (t.act (.release number)).host.files.get? location = some entry ∨ entry = .socket number

def Keeps (first : Nat) : Tenancy → List Move → Prop
  | t, [] => t.Standing first
  | t, m :: rest => t.Standing first ∧ t.Fair m ∧ (t.act m).Keeps first rest

/-- Nobody binds a path where the socket of a bound listener stands. -/
def Spares (t : Tenancy) : Move → Prop
  | .bind path => ∀ l ∈ t.bound, t.host.lookupFile path ≠ .ok (.socket l.number)
  | .release _ => True

def Considerate : Tenancy → List Move → Prop
  | _, [] => True
  | t, m :: rest => t.Spares m ∧ (t.act m).Considerate rest

/-- The numbers tell the bound listeners apart. -/
structure Numbered (t : Tenancy) : Prop where
  below : ∀ l ∈ t.bound, l.number < t.next
  distinct : (t.bound.map (·.number)).Nodup

theorem numbered_opened (h : Host) : (opened h).Numbered :=
  ⟨by simp [opened], by simp [opened]⟩

theorem standing_opened (h : Host) : (opened h).Standing (opened h).next :=
  ⟨by simp [opened], fun _ _ stands => .inl (FileTree.owner_lt_freshNumber stands)⟩

variable {t : Tenancy} {first number : Nat} {path : String} {location there : Location} {l : Listener}

theorem attempt_bindsTo (t : Tenancy) (path : String) :
    Listener.BindsTo t.next path t.host (t.attempt path) :=
  Listener.bind_bindsTo t.next path t.host

theorem bound_bind (t : Tenancy) (path : String) :
    (t.act (.bind path)).bound = t.bound ∨
      (t.act (.bind path)).bound = t.bound ++ [⟨t.next, .unix path⟩] := by
  cases t.attempt_bindsTo path with
  | refused e failed _ _ => exact .inl (by simp [act, failed, Except.toOption])
  | cleared _ _ e _ _ _ failed => exact .inl (by simp [act, failed, Except.toOption])
  | made _ _ _ _ bound => exact .inr (by simp [act, bound, Except.toOption])

theorem act_release (t : Tenancy) (number : Nat) :
    (t.act (.release number) = t ∧ t.IsGone number) ∨
      ∃ l ∈ t.bound, l.number = number ∧
        t.act (.release number) =
          { t with
            host := (l.release t.host).1
            bound := t.bound.filter (·.number != number) } := by
  simp only [act]
  cases found : t.bound.find? (·.number == number) with
  | none => exact .inl ⟨rfl, fun l mem => by simpa using List.find?_eq_none.mp found l mem⟩
  | some l =>
    have same : l.number = number := by simpa using List.find?_some found
    exact .inr ⟨l, List.mem_of_find?_eq_some found, same, rfl⟩

theorem Numbered.bind (n : t.Numbered) (path : String) : (t.act (.bind path)).Numbered := by
  rcases t.bound_bind path with same | more
  · refine ⟨fun l mem => ?_, by rw [same]; exact n.distinct⟩
    exact Nat.lt_succ_of_lt (n.below l (same ▸ mem))
  · refine ⟨fun l mem => ?_, ?_⟩
    · rw [more, List.mem_append, List.mem_singleton] at mem
      rcases mem with old | rfl
      · exact Nat.lt_succ_of_lt (n.below l old)
      · exact Nat.lt_succ_self _
    · rw [more, List.map_append, List.nodup_append]
      refine ⟨n.distinct, by simp, fun a old b new => ?_⟩
      obtain ⟨l, mem, rfl⟩ := List.mem_map.mp old
      obtain rfl : b = t.next := by simpa using new
      exact Nat.ne_of_lt (n.below l mem)

theorem Numbered.release (n : t.Numbered) (number : Nat) :
    (t.act (.release number)).Numbered := by
  rcases t.act_release number with ⟨same, -⟩ | ⟨l, -, -, after⟩
  · rw [same]
    exact n
  · rw [after]
    exact ⟨fun l mem => n.below l (List.mem_filter.mp mem).1,
      n.distinct.sublist (List.filter_sublist.map _)⟩

theorem Numbered.act (n : t.Numbered) (m : Move) : (t.act m).Numbered := by
  cases m with
  | bind path => exact n.bind path
  | release number => exact n.release number

/-- Where a spared listener stands, no path leads that is bound. -/
theorem Spares.ne_of_standsAt (spares : t.Spares (.bind path))
    (leads : t.host.locateFile path = .ok location) (mem : l ∈ t.bound)
    (stands : l.StandsAt t.host there) : there ≠ location := fun same =>
  spares l mem (Host.lookupFile_eq_ok_iff.mpr ⟨location, leads, same ▸ stands.stands⟩)

/-- The listener whose socket is cleared away is none of those that are spared. -/
theorem Spares.isGone (spares : t.Spares (.bind path)) {owner : Nat}
    (leads : t.host.locateFile path = .ok location)
    (stood : t.host.files.get? location = some (.socket owner)) : t.IsGone owner := fun l mem same =>
  spares l mem (Host.lookupFile_eq_ok_iff.mpr ⟨location, leads, same ▸ stood⟩)

/-- What changes at one location leaves the owners of all others what they were. -/
theorem Standing.elsewhere (s : t.Standing first) {h : Host} {what : Option FileEntry} {owner : Nat}
    (puts : t.host.files.Puts location what h.files)
    (free : t.host.files.get? location ≠ some .directory) (other : there ≠ location)
    (stands : h.files.get? there = some (.socket owner)) :
    owner < first ∨ ∃ l ∈ t.bound, l.number = owner ∧ l.StandsAt h there := by
  rcases s.owned there owner ((puts.get?_of_ne other).symm.trans stands) with
    old | ⟨l, mem, same, stood⟩
  · exact .inl old
  · exact .inr ⟨l, mem, same, stood.puts puts free other⟩

/-- What a sparing bind changes at the end of its path leaves all bound listeners their sockets. -/
theorem Standing.spared (s : t.Standing first) (spares : t.Spares (.bind path)) {h : Host}
    {what : Option FileEntry} (leads : t.host.locateFile path = .ok location)
    (puts : t.host.files.Puts location what h.files)
    (free : t.host.files.get? location ≠ some .directory) (mem : l ∈ t.bound) :
    ∃ there, l.StandsAt h there := by
  obtain ⟨there, stands⟩ := s.placed l mem
  exact ⟨there, stands.puts puts free (spares.ne_of_standsAt leads mem stands)⟩

/-- A bind that spares the others leaves their sockets where they are. -/
theorem Standing.bind (s : t.Standing first) (spares : t.Spares (.bind path)) :
    (t.act (.bind path)).Standing first := by
  cases t.attempt_bindsTo path with
  | refused e failed unchanged _ =>
    have host : (t.act (.bind path)).host = t.host := unchanged
    have bound : (t.act (.bind path)).bound = t.bound := by simp [act, failed, Except.toOption]
    exact ⟨by rw [host, bound]; exact s.placed, by rw [host, bound]; exact s.owned⟩
  | cleared location owner e leads stood puts failed =>
    have free : t.host.files.get? location ≠ some .directory := by simp [stood]
    have bound : (t.act (.bind path)).bound = t.bound := by simp [act, failed, Except.toOption]
    constructor
    · intro l mem
      exact s.spared spares leads puts free (bound ▸ mem)
    · intro there owner stands
      rw [bound]
      by_cases here : there = location
      · subst here
        exact absurd (puts.get?_self.symm.trans stands) (by simp)
      · exact s.elsewhere puts free here stands
  | made location leads stood puts result =>
    have free : t.host.files.get? location ≠ some .directory := by
      rcases stood with none | ⟨owner, socket⟩
      · simp [none]
      · simp [socket]
    have bound : (t.act (.bind path)).bound = t.bound ++ [⟨t.next, .unix path⟩] := by
      simp [act, result, Except.toOption]
    have new : Listener.StandsAt ⟨t.next, .unix path⟩ (t.attempt path).host location :=
      ⟨⟨path, rfl, Host.locateFile_of_puts puts free leads⟩, puts.get?_self⟩
    constructor
    · intro l mem
      rw [bound, List.mem_append, List.mem_singleton] at mem
      rcases mem with mem | rfl
      · exact s.spared spares leads puts free mem
      · exact ⟨location, new⟩
    · intro there owner stands
      rw [bound]
      by_cases here : there = location
      · subst here
        have same : t.next = owner := by simpa using puts.get?_self.symm.trans stands
        exact .inr ⟨_, List.mem_append_right _ (List.mem_singleton_self _), same, new⟩
      · rcases s.elsewhere puts free here stands with old | ⟨l, mem, same, stands'⟩
        · exact .inl old
        · exact .inr ⟨l, List.mem_append_left _ mem, same, stands'⟩

theorem Standing.release (s : t.Standing first) (n : t.Numbered) (number : Nat) :
    (t.act (.release number)).Standing first := by
  rcases t.act_release number with ⟨same, -⟩ | ⟨l, mem, rfl, after⟩
  · rw [same]
    exact s
  obtain ⟨location, stands⟩ := s.placed l mem
  have puts := stands.release
  have free : t.host.files.get? location ≠ some .directory := by simp [stands.stands]
  rw [after]
  constructor
  · intro other kept
    obtain ⟨mem', differs⟩ := List.mem_filter.mp kept
    obtain ⟨there, stands'⟩ := s.placed other mem'
    have elsewhere : there ≠ location := by
      rintro rfl
      have same : other.number = l.number := by simpa using stands'.stands.symm.trans stands.stands
      simp [same] at differs
    exact ⟨there, stands'.puts puts free elsewhere⟩
  · intro there owner found
    have elsewhere : there ≠ location := by
      rintro rfl
      exact absurd (puts.get?_self.symm.trans found) (by simp)
    rcases s.owned there owner ((puts.get?_of_ne elsewhere).symm.trans found) with
      old | ⟨other, mem', same, stands'⟩
    · exact .inl old
    · have differs : other.number ≠ l.number := by
        intro equal
        obtain rfl := List.inj_on_of_nodup_map n.distinct mem' mem equal
        exact elsewhere (stands'.unique stands)
      exact .inr ⟨other, List.mem_filter.mpr ⟨mem', by simpa using differs⟩, same,
        stands'.puts puts free elsewhere⟩

theorem Standing.act (s : t.Standing first) (n : t.Numbered) {m : Move} (spares : t.Spares m) :
    (t.act m).Standing first := by
  cases m with
  | bind path => exact s.bind spares
  | release number => exact s.release n number

/-- What a bind changes is the socket at its path, whose listener is gone if it spares the others. -/
theorem Spares.fair_bind (spares : t.Spares (.bind path)) : t.Fair (.bind path) := by
  refine ⟨fun entry found other => Listener.bind_refuses t.next found other, ?_⟩
  intro there entry stood
  cases t.attempt_bindsTo path with
  | refused _ _ unchanged _ =>
    rw [unchanged]
    exact .inl stood
  | cleared location owner _ leads socket puts _ =>
    by_cases here : there = location
    · subst here
      obtain rfl : entry = .socket owner := Option.some.inj (stood.symm.trans socket)
      exact .inr ⟨owner, rfl, spares.isGone leads socket⟩
    · exact .inl ((puts.get?_of_ne here).trans stood)
  | made location leads socket? puts _ =>
    by_cases here : there = location
    · subst here
      rcases socket? with none | ⟨owner, socket⟩
      · exact absurd (stood.symm.trans none) (by simp)
      · obtain rfl : entry = .socket owner := Option.some.inj (stood.symm.trans socket)
        exact .inr ⟨owner, rfl, spares.isGone leads socket⟩
    · exact .inl ((puts.get?_of_ne here).trans stood)

/-- While all bound listeners have their sockets, a release removes the one of its own listener. -/
theorem Standing.fair_release (s : t.Standing first) (number : Nat) : t.Fair (.release number) := by
  intro there entry stood
  rcases t.act_release number with ⟨same, -⟩ | ⟨l, mem, rfl, after⟩
  · rw [same]
    exact .inl stood
  obtain ⟨location, stands⟩ := s.placed l mem
  rw [after]
  by_cases here : there = location
  · subst here
    exact .inr (Option.some.inj (stood.symm.trans stands.stands))
  · exact .inl ((stands.release.get?_of_ne here).trans stood)

theorem Standing.fair (s : t.Standing first) {m : Move} (spares : t.Spares m) : t.Fair m := by
  cases m with
  | bind path => exact spares.fair_bind
  | release number => exact s.fair_release number

/-- A socket that is bound over is gone, so no bound listener may have had it. -/
theorem Numbered.spares (n : t.Numbered) {m : Move} (fair : t.Fair m) : t.Spares m := by
  cases m with
  | release number => exact trivial
  | bind path =>
    intro l mem found
    obtain ⟨location, leads, stood⟩ := Host.lookupFile_eq_ok_iff.mp found
    rcases fair.2 location _ stood with stays | ⟨owner, same, gone⟩
    · cases t.attempt_bindsTo path with
      | refused _ _ _ unmet => exact unmet l.number found
      | cleared there _ _ leads' _ puts _ =>
        obtain rfl : location = there := Except.ok.inj (leads.symm.trans leads')
        exact absurd (puts.get?_self.symm.trans stays) (by simp)
      | made there leads' _ puts _ =>
        obtain rfl : location = there := Except.ok.inj (leads.symm.trans leads')
        have same : t.next = l.number := by simpa using puts.get?_self.symm.trans stays
        exact absurd (n.below l mem) (by omega)
    · exact gone l mem (by simpa using same)

theorem keeps_iff (n : t.Numbered) (s : t.Standing first) (moves : List Move) :
    t.Keeps first moves ↔ t.Considerate moves := by
  induction moves generalizing t with
  | nil => exact iff_of_true s trivial
  | cons m rest ih =>
    constructor
    · rintro ⟨-, fair, keeps⟩
      have spares := n.spares fair
      exact ⟨spares, (ih (n.act m) (s.act n spares)).mp keeps⟩
    · rintro ⟨spares, considerate⟩
      exact ⟨s, s.fair spares, (ih (n.act m) (s.act n spares)).mpr considerate⟩

/-- Sockets belong to their listeners, along any binds and releases on any host, exactly if no path is
bound where the socket of a bound listener stands. -/
theorem opened_keeps_iff (h : Host) (moves : List Move) :
    (opened h).Keeps (opened h).next moves ↔ (opened h).Considerate moves :=
  keeps_iff (numbered_opened h) (standing_opened h) moves

/-- A path is bound twice and the first listener released. The second is still bound, but its socket is
gone; it went with the first, whose own had been cleared away. -/
theorem bound_over_not_keeps :
    ¬ (opened {}).Keeps (opened {}).next [.bind "relay.sock", .bind "relay.sock", .release 0] := by
  rintro ⟨-, -, -, -, -, -, standing⟩
  obtain ⟨location, stands⟩ := standing.placed ⟨1, .unix "relay.sock"⟩ (by decide +kernel)
  exact absurd stands.isReachable (by decide +kernel)

end Tenancy

end FrameIntake
