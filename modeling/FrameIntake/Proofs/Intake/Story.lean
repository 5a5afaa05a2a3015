import FrameIntake.Proofs.Connection.Fate
import FrameIntake.Proofs.Intake.Gate

/-!
The story that a run tells of one task: what reaches the task, and how far a signal finds it. Of two runs that
tell the same, what holds before also holds behind, if deeds that are not told of keep it on either side, and
equal notes keep it on both (`story_induction`). Two runs in which the same merely comes, wherever signals find
the tasks, bring first messages of the same (`Comparable`).
-/

namespace FrameIntake

open Intake (Deed)

namespace Ledger

variable {p : Partitioner} {stream : String} {id : Nat} {l m : Ledger} {deed : Deed} {deeds deeds' : List Deed}

/-- What is noted of the deeds of a run when they happen, of those of which anything is. -/
def story {α : Type} (p : Partitioner) (stream : String) (note : Ledger → Deed → Option α) :
    Ledger → List Deed → List α
  | _, [] => []
  | l, deed :: deeds => (note l deed).toList ++ story p stream note (l.act p stream deed) deeds

theorem story_filter (p : Partitioner) (stream : String) (q : Deed → Bool) (l : Ledger) (deeds : List Deed) :
    l.story p stream (fun _ deed => if q deed then some deed else none) deeds = deeds.filter q := by
  induction deeds generalizing l with
  | nil => rfl
  | cons deed deeds ih =>
    rw [story, ih, List.filter_cons]
    split <;> rfl

/-- Runs keep what each of them keeps where nothing is noted, and both where they note the same. -/
theorem story_induction {α : Type} {note : Ledger → Deed → Option α} {R : Ledger → Ledger → Prop}
    (symm : ∀ {l m}, R l m → R m l)
    (apart : ∀ {l m deed}, R l m → note l deed = none → R (l.act p stream deed) m)
    (both : ∀ {l m deed deed' n}, R l m → note l deed = some n → note m deed' = some n →
      R (l.act p stream deed) (m.act p stream deed'))
    (h : R l m) (same : l.story p stream note deeds = m.story p stream note deeds') :
    R (l.run p stream deeds) (m.run p stream deeds') := by
  -- Either side goes on by itself up to its next note, and from there both go on together.
  induction deeds generalizing l m deeds' with
  | nil =>
    induction deeds' generalizing m with
    | nil => exact h
    | cons deed deeds' ih =>
      obtain ⟨hnone, hrest⟩ := List.append_eq_nil_iff.mp same.symm
      have hleft := symm (apart (symm h) (Option.toList_eq_nil_iff.mp hnone))
      exact ih hleft hrest.symm
  | cons deed deeds ih =>
    cases hn : note l deed with
    | none =>
      rw [story, hn] at same
      exact ih (apart h hn) same
    | some n =>
      rw [story, hn] at same
      induction deeds' generalizing m with
      | nil => cases same
      | cons deed' deeds' ih' =>
        cases hn' : note m deed' with
        | none =>
          rw [story, hn'] at same
          exact ih' (symm (apart (symm h) hn')) same
        | some n' =>
          rw [story, hn'] at same
          obtain ⟨rfl, hrest⟩ := List.cons.inj same
          exact ih (m := m.act p stream deed') (both h hn hn') hrest

/-- Runs in which the same deeds of some kind happen. -/
theorem filter_induction {q : Deed → Bool} {R : Ledger → Ledger → Prop} (symm : ∀ {l m}, R l m → R m l)
    (apart : ∀ {l m deed}, R l m → q deed = false → R (l.act p stream deed) m)
    (both : ∀ {l m deed}, R l m → q deed = true → R (l.act p stream deed) (m.act p stream deed))
    (h : R l m) (same : deeds.filter q = deeds'.filter q) :
    R (l.run p stream deeds) (m.run p stream deeds') := by
  rw [← story_filter p stream q l, ← story_filter p stream q m] at same
  refine story_induction symm ?_ ?_ h same
  · intro l m deed h hn
    exact apart h (by simpa using hn)
  · intro l m deed deed' n h hn hn'
    obtain ⟨hq, rfl⟩ : q deed = true ∧ deed = n := by simpa using hn
    obtain ⟨_, rfl⟩ : q deed' = true ∧ deed' = deed := by simpa using hn'
    exact both h hq

/-- States that of the connections let in, and of the messages of the one numbered `id`, the two runs have
taken the first ones of the same, one of them maybe more. -/
structure Comparable (id : Nat) (l m : Ledger) : Prop where
  handlers : l.intake.handlers <+: m.intake.handlers ∨ m.intake.handlers <+: l.intake.handlers
  messages : messagesOf l.accepted id <+: messagesOf m.accepted id ∨
    messagesOf m.accepted id <+: messagesOf l.accepted id

/-- What reaches the acceptor and the connection numbered `id` is the same and in the same order. What other
peers send may be anything, and any task may have any turns. -/
structure Agree (id : Nat) (deeds deeds' : List Deed) : Prop where
  acceptor : deeds.filter (Deed.reaches .acceptor) = deeds'.filter (Deed.reaches .acceptor)
  connection : deeds.filter (Deed.reaches (.connection id)) = deeds'.filter (Deed.reaches (.connection id))

theorem ids_act (l : Ledger) (deed : Deed) :
    (l.act p stream deed).intake.ids =
      l.intake.ids ++ if l.intake.admits p stream deed then deed.newId?.toList else [] := by
  rw [act]
  split
  · exact (l.intake.act_ids deed).1
  · rw [List.append_nil]

theorem newId_of_apart (apart : deed.reaches .acceptor = false) : deed.newId? = none := by
  unfold Deed.newId?
  split
  · cases apart
  · rfl

theorem ids_run (h : l.intake.ids = m.intake.ids)
    (same : deeds.filter (Deed.reaches .acceptor) = deeds'.filter (Deed.reaches .acceptor)) :
    (l.run p stream deeds).intake.ids = (m.run p stream deeds').intake.ids := by
  refine filter_induction (R := fun l m => l.intake.ids = m.intake.ids) Eq.symm ?_ ?_ h same
  · intro l m deed h apart
    rw [ids_act, newId_of_apart apart, Option.toList_none, ite_self, List.append_nil, h]
  · intro l m deed h _
    have hadmits : l.intake.admits p stream deed = m.intake.admits p stream deed := by
      unfold Intake.admits
      rw [h]
    rw [ids_act, ids_act, hadmits, h]

/-- States that the peer of the connection numbered `id` has sent the same in two runs. -/
structure Fed (id : Nat) (l m : Ledger) : Prop where
  sent : l.sent id = m.sent id
  known : id ∈ l.intake.ids ↔ id ∈ m.intake.ids

theorem Fed.symm (h : Fed id l m) : Fed id m l := ⟨h.sent.symm, h.known.symm⟩

/-- A deed that does not reach a connection does not feed it. -/
theorem fed_of_apart (p : Partitioner) (stream : String)
    (apart : deed.reaches (.connection id) = false) (l : Ledger) : Fed id (l.act p stream deed) l := by
  refine ⟨?_, ?_⟩
  · rw [act]
    split
    · dsimp only
      unfold sentAfter
      split
      · exact if_neg fun h => by simp [Deed.reaches, h] at apart
      · exact if_neg fun h => by simp [Deed.reaches, h] at apart
      · rfl
    · rfl
  · rw [ids_act, List.mem_append]
    refine or_iff_left ?_
    intro hnew
    split at hnew
    · unfold Deed.newId? at hnew
      split at hnew
      · simp [Deed.reaches, List.mem_singleton.mp hnew] at apart
      · cases hnew
    · cases hnew

theorem Fed.act (h : Fed id l m) (reached : deed.reaches (.connection id) = true) :
    Fed id (l.act p stream deed) (m.act p stream deed) := by
  have hadmits : l.intake.admits p stream deed = m.intake.admits p stream deed := by
    unfold Intake.admits
    split
    · rename_i c
      have hid : c.id = id := by simpa [Deed.reaches, eq_comm] using reached
      rw [hid, decide_eq_decide.mpr (not_congr h.known)]
    · rfl
  refine ⟨?_, ?_⟩
  · rw [Ledger.act, Ledger.act, hadmits]
    split
    · dsimp only
      unfold sentAfter
      split
      · rw [h.sent]
      · rw [h.sent]
      · exact h.sent
    · exact h.sent
  · rw [ids_act, ids_act, hadmits, List.mem_append, List.mem_append, h.known]

theorem Fed.run (h : Fed id l m)
    (same : deeds.filter (Deed.reaches (.connection id)) = deeds'.filter (Deed.reaches (.connection id))) :
    Fed id (l.run p stream deeds) (m.run p stream deeds') := by
  refine filter_induction Fed.symm ?_ Fed.act h same
  intro l m deed h apart
  have hl := fed_of_apart p stream apart l
  exact ⟨hl.sent.trans h.sent, hl.known.trans h.known⟩

/-- The messages of a connection are first frames of what its peer has sent. -/
theorem messages_of_told (h : Told p stream l.intake l.sent l.accepted) (id : Nat) :
    messagesOf l.accepted id <+: (p.cut (l.sent id)).frames.map (·.message stream) := by
  by_cases hid : id ∈ l.intake.ids
  · obtain ⟨c, hc, rfl⟩ := List.mem_map.mp hid
    obtain ⟨ch, bytes, taken, hkept, rfl, hsent, haccepted⟩ := (h.chronicled c hc).kept
    rw [← hsent, hkept.sent, ← haccepted, Partitioner.cut_append, Cut.behind_frames, List.map_append]
    have htaken : ch.accepted <+: taken.map (·.message stream) :=
      hkept.delivered ▸ List.prefix_append _ _
    exact (htaken.trans (hkept.stands.frames.map _)).trans (List.prefix_append _ _)
  · have hnone : messagesOf l.accepted id = [] := by
      apply messagesOf_of_ne
      intro d hd he
      obtain ⟨c, hc, hcid⟩ := List.mem_map.mp (h.senders d hd)
      exact hid (he ▸ hcid ▸ List.mem_map_of_mem (List.mem_append_left _ hc))
    rw [hnone]
    exact List.nil_prefix

theorem comparable_of_fed (left : Told p stream l.intake l.sent l.accepted)
    (right : Told p stream m.intake m.sent m.accepted) (ids : l.intake.ids = m.intake.ids)
    (fed : Fed id l m) : Comparable id l m := by
  refine ⟨?_, ?_⟩
  · have hhandlers (w : Intake) : w.handlers <+: w.ids := by
      rw [Intake.ids, Intake.peers, List.map_append]
      exact List.prefix_append _ _
    exact List.prefix_or_prefix_of_prefix (hhandlers l.intake) (ids ▸ hhandlers m.intake)
  · exact List.prefix_or_prefix_of_prefix (messages_of_told left id)
      (fed.sent ▸ messages_of_told right id)

/-- How far a task has come. -/
inductive Milestone
  | acceptor (acceptor : Acceptor) (handlers : Nat)
  | handler (hasEnded : Bool) (messages : Nat)
  deriving DecidableEq

/-- How the handler of a connection has ended, if it has. -/
def endingOf (l : Ledger) (id : Nat) : Option Ending :=
  (l.intake.peers.find? (·.id = id)).bind Connection.ending?

def milestone (l : Ledger) : Task → Milestone
  | .acceptor => .acceptor l.intake.acceptor l.intake.handlers.length
  | .connection id => .handler (l.endingOf id).isSome (messagesOf l.accepted id).length

/-- A deed that reaches a task, a signal with how far it finds the task. -/
def noteOf (task : Task) (l : Ledger) (deed : Deed) : Option (Deed × Option Milestone) :=
  if deed.reaches task then some (deed, if deed.isSignal then some (l.milestone task) else none) else none

/-- No signal finds the acceptor or the handler of the connection numbered `id` further in one run than in the
other. -/
structure Level (p : Partitioner) (stream : String) (id : Nat) (l : Ledger) (deeds deeds' : List Deed) :
    Prop where
  acceptor : l.story p stream (noteOf .acceptor) deeds = l.story p stream (noteOf .acceptor) deeds'
  connection : l.story p stream (noteOf (.connection id)) deeds =
    l.story p stream (noteOf (.connection id)) deeds'

/-- Where the same is noted, it is the same deed, and a signal finds the task equally far. -/
theorem eq_of_notes {task : Task} {deed' : Deed} {note : Deed × Option Milestone}
    (hl : noteOf task l deed = some note) (hm : noteOf task m deed' = some note) :
    deed' = deed ∧ deed.reaches task = true ∧
      (deed.isSignal = true → l.milestone task = m.milestone task) := by
  unfold noteOf at hl hm
  split at hl
  · rename_i hreached
    split at hm
    · cases hl
      obtain ⟨rfl, hmile⟩ := Prod.mk.inj (Option.some.inj hm)
      refine ⟨rfl, hreached, ?_⟩
      intro hs
      rw [if_pos hs, if_pos hs] at hmile
      exact (Option.some.inj hmile).symm
    · cases hm
  · cases hl

theorem apart_of_note {task : Task} (h : noteOf task l deed = none) : deed.reaches task = false := by
  unfold noteOf at h
  split at h
  · cases h
  · simpa using ‹¬ deed.reaches task = true›

/-- Of turns there is no story. -/
theorem story_of_inner {task : Task} (inner : ∀ deed ∈ deeds, deed.isInner = true) (l : Ledger) :
    l.story p stream (noteOf task) deeds = [] := by
  induction deeds generalizing l with
  | nil => rfl
  | cons deed deeds ih =>
    have hnone : noteOf task l deed = none := by
      apply if_neg
      intro hreached
      cases (inner deed List.mem_cons_self).symm.trans (Deed.outer_of_reaches hreached)
    rw [story, hnone]
    exact ih (fun d hd => inner d (List.mem_cons_of_mem deed hd)) _

end Ledger

end FrameIntake
