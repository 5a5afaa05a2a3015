import FrameIntake.Proofs.Fuse.Custody
import Mathlib.Data.List.Nodup

/-!
The tasks that wait for a fuse. A waiter is done with the first rest at which its monitor shows what it
waits for, and a monitor shows the last turn (`run_faithful`).
-/

namespace FrameIntake.Fuse

namespace Board

variable {b b' : Board} {w x : Waiter}

theorem shows_congr (h : b'.burned = b.burned) (m : Monitor) : b'.shows m = b.shows m := by
  cases m with
  | attached => exact h
  | never => rfl

/-- An id tells of one waiter only. -/
structure Distinct (b : Board) : Prop where
  ids : (b.waiting.map Waiter.id).Nodup
  apart : ∀ w ∈ b.waiting, w.id ∉ b.done

theorem Distinct.unique (h : b.Distinct) (hw : w ∈ b.waiting) (hx : x ∈ b.waiting)
    (same : x.id = w.id) : x = w :=
  List.inj_on_of_nodup_map h.ids hx hw same

theorem Distinct.start (h : b.Distinct) (w : Waiter) : (b.start w).Distinct := by
  have hothers : w.id ∉ (b.waiting.filter (·.id ≠ w.id)).map Waiter.id := by
    intro hm
    obtain ⟨x, hx, he⟩ := List.mem_map.mp hm
    exact of_decide_eq_true (List.mem_filter.mp hx).2 he
  refine ⟨?_, ?_⟩
  · rw [Board.start, List.map_append, List.map_singleton, ← List.concat_eq_append]
    exact List.Nodup.concat hothers (h.ids.sublist (List.filter_sublist.map _))
  · intro x hx hdone
    obtain ⟨hdone, hne⟩ := List.mem_filter.mp hdone
    rcases List.mem_append.mp hx with hx | hx
    · exact h.apart x (List.mem_filter.mp hx).1 hdone
    · rw [List.mem_singleton.mp hx] at hne
      exact of_decide_eq_true hne rfl

theorem mem_waiting_settle : w ∈ b.settle.waiting ↔ w ∈ b.waiting ∧ b.isThrough w = false := by
  simp [settle]

theorem Distinct.settle (h : b.Distinct) : b.settle.Distinct := by
  refine ⟨h.ids.sublist (List.filter_sublist.map _), ?_⟩
  intro w hw hdone
  obtain ⟨hw, hstays⟩ := mem_waiting_settle.mp hw
  rcases List.mem_append.mp hdone with hdone | hdone
  · exact h.apart w hw hdone
  · obtain ⟨x, hx, he⟩ := List.mem_map.mp hdone
    obtain ⟨hx, hthrough⟩ := List.mem_filter.mp hx
    rw [h.unique hw hx he, hstays] at hthrough
    cases hthrough

/-- A rest finishes those that are through, and no others. -/
theorem mem_done_settle (h : w ∈ b.waiting) (through : b.isThrough w = true) :
    w.id ∈ b.settle.done := by
  apply List.mem_append_right
  exact List.mem_map_of_mem (List.mem_filter.mpr ⟨h, through⟩)

end Board

namespace Custody

variable {c c' : Custody} {d : Deed} {e : Event} {w : Waiter}

theorem Comes.distinct (h : c.Comes e c') (distinct : c.board.Distinct) : c'.board.Distinct := by
  cases h with
  | turned | told | named => exact ⟨distinct.ids, distinct.apart⟩
  | passed holders =>
    rw [hold_eq]
    exact ⟨distinct.ids, distinct.apart⟩
  | started starts => exact distinct.start _
  | settled => exact distinct.settle

/-- A waiter waits on, except at a rest at which it is through. -/
theorem Comes.waits (h : c.Comes e c') (waits : w ∈ c.board.waiting)
    (other : (c.starts? e.deed).map Waiter.id ≠ some w.id)
    (rest : e.deed = .settle → c.board.isThrough w = false) : w ∈ c'.board.waiting := by
  cases h with
  | turned | told | named => exact waits
  | passed holders =>
    rw [hold_eq]
    exact waits
  | started starts =>
    rw [starts, Option.map_some, ne_eq, Option.some.injEq] at other
    apply List.mem_append_left
    exact List.mem_filter.mpr ⟨waits, decide_eq_true (Ne.symm other)⟩
  | settled => exact Board.mem_waiting_settle.mpr ⟨waits, rest rfl⟩

theorem Comes.stays_done {id : String} (h : c.Comes e c') (done : id ∈ c.board.done)
    (other : (c.starts? e.deed).map Waiter.id ≠ some id) : id ∈ c'.board.done := by
  cases h with
  | turned | told | named => exact done
  | passed holders =>
    rw [hold_eq]
    exact done
  | started starts =>
    rw [starts, Option.map_some, ne_eq, Option.some.injEq] at other
    exact List.mem_filter.mpr ⟨done, decide_eq_true (Ne.symm other)⟩
  | settled => exact List.mem_append_left _ done

theorem distinct_after (deeds : List Deed) : (fresh.after deeds).board.Distinct := by
  induction deeds using List.reverseRecOn with
  | nil => exact ⟨List.nodup_nil, by simp [fresh, after]⟩
  | append_singleton deeds d ih =>
    rw [after_concat]
    exact (next_comes (kept_after deeds).held d).distinct ih

theorem stays_done_after {id : String} {deeds : List Deed} (held : c.Held) (done : id ∈ c.board.done)
    (alone : id ∉ c.started deeds) : id ∈ (c.after deeds).board.done := by
  induction deeds generalizing c with
  | nil => exact done
  | cons d deeds ih =>
    obtain ⟨hother, halone⟩ := not_mem_along_cons.mp alone
    have hcomes := next_comes held d
    exact ih (hcomes.held held) (hcomes.stays_done done hother) halone

/-- At some rest the monitor of the waiter shows what it waits for. -/
def Meets (c : Custody) (w : Waiter) (deeds : List Deed) : Prop :=
  ∃ before since, deeds = before ++ .settle :: since ∧ (c.after before).board.isThrough w = true

theorem meets_cons {deeds : List Deed} :
    c.Meets w (d :: deeds) ↔
      (d = .settle ∧ c.board.isThrough w = true) ∨ (c.next d).Meets w deeds := by
  constructor
  · rintro ⟨before, since, he, hthrough⟩
    cases before with
    | nil =>
      obtain ⟨rfl, rfl⟩ := List.cons.inj he
      exact .inl ⟨rfl, hthrough⟩
    | cons first before =>
      obtain ⟨rfl, rfl⟩ := List.cons.inj he
      exact .inr ⟨before, since, rfl, hthrough⟩
  · rintro (⟨rfl, hthrough⟩ | ⟨before, since, rfl, hthrough⟩)
    · exact ⟨[], deeds, rfl, hthrough⟩
    · exact ⟨d :: before, since, rfl, hthrough⟩

/-- A waiter is done once it was through at a rest, and waits until then. -/
theorem fate {deeds : List Deed} (held : c.Held) (waits : w ∈ c.board.waiting)
    (alone : w.id ∉ c.started deeds) :
    (c.Meets w deeds → w.id ∈ (c.after deeds).board.done) ∧
      (¬ c.Meets w deeds → w ∈ (c.after deeds).board.waiting) := by
  induction deeds generalizing c with
  | nil =>
    refine ⟨?_, fun _ => waits⟩
    rintro ⟨before, since, he, _⟩
    simp at he
  | cons d deeds ih =>
    obtain ⟨hother, halone⟩ := not_mem_along_cons.mp alone
    have hcomes := next_comes held d
    rw [meets_cons, after_cons]
    by_cases hnow : d = .settle ∧ c.board.isThrough w = true
    · obtain ⟨rfl, hthrough⟩ := hnow
      refine ⟨?_, fun hnot => absurd (.inl ⟨rfl, hthrough⟩) hnot⟩
      intro _
      have hdone : w.id ∈ (c.next .settle).board.done := Board.mem_done_settle waits hthrough
      exact stays_done_after (hcomes.held held) hdone halone
    · have hrest (hd : d = .settle) : c.board.isThrough w = false :=
        Bool.eq_false_iff.mpr fun hthrough => hnow ⟨hd, hthrough⟩
      simpa only [hnow, false_or] using ih (hcomes.held held) (hcomes.waits waits hother hrest) halone

theorem waits_of_starts (h : c.starts? d = some w) : w ∈ (c.next d).board.waiting := by
  cases d with
  | share | settle => cases h
  | act holder action =>
    cases action with
    | await id monitor burned =>
      rw [starts?] at h
      split at h
      · rename_i hcan
        obtain ⟨m, hm, rfl⟩ := Option.map_eq_some_iff.mp h
        rw [next, does_of_can (by simp) hcan]
        simp [Board.act, hm]
      · cases h
    | _ => cases h

/-- What is promised of a fuse after any deeds of its holders, of its monitors and of those who wait. -/
structure Faithful (deeds : List Deed) : Prop where
  /-- It is where the last turn has put it, and clear before the first. -/
  stands : (fresh.after deeds).board.burned = position (fresh.events deeds)
  /-- A monitor shows that under the name it was given, until the name is given to another. -/
  shows : ∀ before d since name m, deeds = before ++ d :: since →
    (fresh.after before).names? d = some (name, m) →
    name ∉ (fresh.after (before ++ [d])).named since →
    ∀ who, ((fresh.after deeds).event (.act who (.observe name))).answer =
      some (shown (fresh.events deeds) m)
  asks : ∀ holder, ((fresh.after deeds).event (.act holder .ask)).answer =
    if holder ∈ (fresh.after deeds).holders then some (position (fresh.events deeds)) else none
  /-- A turn is answered with whether the fuse was in the other position. -/
  turns : ∀ holder burned, ((fresh.after deeds).event (.act holder (.turn burned))).answer =
    if holder ∈ (fresh.after deeds).holders then some (position (fresh.events deeds) != burned)
    else none
  /-- Nothing moves the fuse but a turn that is said to have moved it. -/
  moved : ∀ d, (fresh.after (deeds ++ [d])).board.burned ≠ (fresh.after deeds).board.burned ↔
    ∃ holder burned, d = .act holder (.turn burned) ∧ ((fresh.after deeds).event d).answer = some true
  alternate : (false :: moves (fresh.events deeds)).IsChain (· ≠ ·)
  logged : log (fresh.events deeds) = (moves (fresh.events deeds)).map announced
  balance : (moves (fresh.events deeds)).count true =
    (moves (fresh.events deeds)).count false + (position (fresh.events deeds)).toNat
  /-- A waiter is done once its monitor has shown at a rest what it waits for, and waits until then. -/
  done : ∀ before d since w, deeds = before ++ d :: since →
    (fresh.after before).starts? d = some w →
    w.id ∉ (fresh.after (before ++ [d])).started since →
    (w.id ∈ (fresh.after deeds).board.done ↔ ∃ mid rest, since = mid ++ .settle :: rest ∧
        shown (fresh.events (before ++ d :: mid)) w.monitor = w.burned) ∧
      (w ∈ (fresh.after deeds).board.waiting ↔ w.id ∉ (fresh.after deeds).board.done)
  /-- Once nobody holds the fuse it stays where it is. -/
  gone : (fresh.after deeds).holders = [] → ∀ since,
    position (fresh.events (deeds ++ since)) = position (fresh.events deeds)
  /-- Who waits then for it to be elsewhere waits for ever. -/
  stranded : (fresh.after deeds).holders = [] → ∀ w ∈ (fresh.after deeds).board.waiting,
    shown (fresh.events deeds) w.monitor ≠ w.burned → ∀ since,
      w.id ∉ (fresh.after deeds).started since →
      w ∈ (fresh.after (deeds ++ since)).board.waiting ∧
        w.id ∉ (fresh.after (deeds ++ since)).board.done

theorem shows_after (deeds : List Deed) (m : Monitor) :
    (fresh.after deeds).board.shows m = shown (fresh.events deeds) m := by
  cases m with
  | attached => exact (kept_after deeds).burned
  | never => rfl

theorem meets_iff {before deeds : List Deed} :
    (fresh.after before).Meets w deeds ↔ ∃ mid rest, deeds = mid ++ .settle :: rest ∧
      shown (fresh.events (before ++ mid)) w.monitor = w.burned := by
  simp only [Meets, Board.isThrough, ← after_append, shows_after, beq_iff_eq]

theorem answer_of_far {who : String} {action : Action} (far : action.isDistant = true) :
    (c.event (.act who action)).answer = (c.board.act action).2.1 := by
  have hdrop : action ≠ .drop := by
    rintro rfl
    cases far
  rw [event, does_of_can hdrop (by rw [can, far, Bool.true_or])]

theorem answer_of_near {holder : String} {action : Action} (near : action.isDistant = false)
    (drop : action ≠ .drop) :
    (c.event (.act holder action)).answer =
      if holder ∈ c.holders then (c.board.act action).2.1 else none := by
  by_cases h : holder ∈ c.holders
  · rw [if_pos h, event, does_of_can drop (by simp [can, h])]
  · rw [if_neg h, event, does_of_refused drop (by simp [can, near, h])]

/-- In any run, whatever is done with the fuse, by whom and in whatever order. -/
theorem run_faithful (deeds : List Deed) : Faithful deeds := by
  have hkept := kept_after deeds
  refine ⟨hkept.burned, ?_, ?_, ?_, ?_, hkept.alternate, hkept.logged, ?_, ?_, ?_, ?_⟩
  · rintro before d since name m rfl hnames halone who
    rw [after_concat] at halone
    have hheld := (next_comes (kept_after before).held d).held (kept_after before).held
    have hlookup : (fresh.after (before ++ d :: since)).board.monitors.lookup name = some m := by
      rw [after_append, after_cons, lookup_after hheld halone, lookup_of_names hnames]
    rw [answer_of_far rfl, Board.act, hlookup, Option.map_some, shows_after]
  · intro holder
    rw [answer_of_near rfl (by simp), ← hkept.burned]
    split
    · rename_i h
      rw [Board.act, if_pos (turnable_of_mem hkept.held h)]
    · rfl
  · intro holder burned
    rw [answer_of_near rfl (by simp), ← hkept.burned]
    split
    · rename_i h
      rw [Board.act_turn (turnable_of_mem hkept.held h)]
    · rfl
  · intro d
    rw [after_concat]
    exact (next_comes hkept.held d).moved_iff
  · rw [hkept.balance, hkept.burned]
  · rintro before d since w rfl hstarts halone
    have hwaits : w ∈ (fresh.after (before ++ [d])).board.waiting := by
      rw [after_concat]
      exact waits_of_starts hstarts
    obtain ⟨hdone, hwaiting⟩ := fate (kept_after _).held hwaits halone
    rw [← after_append, meets_iff] at hdone hwaiting
    simp only [List.append_assoc, List.singleton_append] at hdone hwaiting
    have hapart := (distinct_after (before ++ d :: since)).apart w
    refine ⟨⟨?_, hdone⟩, ⟨hapart, ?_⟩⟩
    · intro h
      by_contra hnot
      exact hapart (hwaiting hnot) h
    · intro h
      exact hwaiting fun hmeets => h (hdone hmeets)
  · intro hgone since
    rw [← hkept.burned, ← (kept_after _).burned, after_append]
    exact (gone_after hkept.held hgone since).2
  · intro hgone w hwaits hother since halone
    have hnever : ¬ (fresh.after deeds).Meets w since := by
      rw [meets_iff]
      rintro ⟨mid, _, _, hmeets⟩
      apply hother
      rw [← hmeets, ← shows_after, ← shows_after, after_append]
      exact (Board.shows_congr (gone_after hkept.held hgone mid).2 w.monitor).symm
    have hwaiting := (fate hkept.held hwaits halone).2 hnever
    rw [← after_append] at hwaiting
    exact ⟨hwaiting, (distinct_after _).apart w hwaiting⟩

/-- A burn that is undone before the next rest is not seen. After the last drop, whoever waits for the fuse to be
clear waits for ever. -/
theorem run_faithful_unseen_burn :
    let deeds : List Deed :=
      [.share "fuse" "spare", .act "fuse" (.attach "panel"), .act "hall" (.copy "lamp" "panel"),
        .act "hall" (.await "early" (some "lamp") true), .act "spare" (.turn true),
        .act "fuse" (.turn false), .settle]
    let more : List Deed :=
      [.act "spare" (.turn true), .settle, .act "fuse" .drop, .act "spare" .drop,
        .act "hall" (.await "late" (some "panel") false), .settle]
    moves (fresh.events (deeds ++ more)) = [true, false, true] ∧
      "early" ∉ (fresh.after deeds).board.done ∧ "early" ∈ (fresh.after (deeds ++ more)).board.done ∧
      (∀ who, ((fresh.after (deeds ++ more)).event (.act who (.observe "lamp"))).answer = some true) ∧
      ∀ since, "late" ∉ (fresh.after (deeds ++ more)).started since →
        "late" ∉ (fresh.after (deeds ++ more ++ since)).board.done := by
  intro deeds more
  refine ⟨by decide, ?_, ?_, ?_, ?_⟩
  · have hfate := (run_faithful deeds).done (deeds.take 3) _ (deeds.drop 4) ⟨"early", .attached, true⟩ rfl
      (by decide) (by decide)
    exact hfate.2.mp (by decide)
  · have hfate := (run_faithful (deeds ++ more)).done (deeds.take 3) _ (deeds.drop 4 ++ more)
      ⟨"early", .attached, true⟩ rfl (by decide) (by decide)
    exact hfate.1.mpr ⟨deeds.drop 4 ++ more.take 1, more.drop 2, rfl, by decide⟩
  · intro who
    have hshows := (run_faithful (deeds ++ more)).shows (deeds.take 2) _ (deeds.drop 3 ++ more) "lamp"
      .attached rfl (by decide) (by decide) who
    rwa [show shown (fresh.events (deeds ++ more)) .attached = true by decide] at hshows
  · intro since hstarted
    exact ((run_faithful (deeds ++ more)).stranded (by decide) ⟨"late", .attached, false⟩ (by decide)
      (by decide) since hstarted).2

end Custody

end FrameIntake.Fuse
