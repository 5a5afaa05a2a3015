import FrameIntake.Proofs.Intake.Peers

/-!
Rest. A task that has paused is not at rest, it only waits for its next turn; so an intake is still if no
task can move even in a new turn, with all that has arrived heard of. Where the scheduler stops, the intake
is still (`still_settle`).
-/

namespace FrameIntake

theorem Connection.hear_of_heard {c : Connection} (heard : c.isUnheard = false)
    (running : c.isEnded = false) : c.hear = c := by
  unfold hear
  split
  · rfl
  · rename_i heard' hs
    cases heard' with
    | true => rw [← hs]
    | false => simp [isUnheard, running, hs] at heard

theorem Connection.hear_isEnded (c : Connection) : c.hear.isEnded = c.isEnded := by
  rw [isEnded, c.hear_phase, ← isEnded]

namespace Intake

variable {w v : Intake} {c : Connection} {signals : Signals} {sink : Sink} {left : Nat}

/-- The intake as the next turn finds it. -/
def refreshed (w : Intake) : Intake :=
  { w with connections := w.connections.map Connection.hear, spent := 0 }

/-- No task can move. -/
def Still (w : Intake) : Prop := ∀ task, w.refreshed.move task = none

/-- What an acceptor waits for. -/
theorem stepAcceptor_eq_none_iff :
    w.stepAcceptor = none ↔
      w.acceptor = .stopped ∨
      w.listenerClosed = false ∧
        (w.acceptor = .holding ∧ w.signals.burned = true ∨
          w.acceptor = .accepting ∧ w.signals.burned = false ∧
            ∀ arrival rest, w.backlog = arrival :: rest → ∃ c, arrival = .connection c ∧ w.left < c.toll) := by
  unfold stepAcceptor
  cases ha : w.acceptor with
  | unstarted => simp
  | deciding =>
    simp only [reduceCtorEq, false_and, or_self, and_false, iff_false]
    split
    · simp
    · split <;> simp
  | holding => cases w.listenerClosed <;> cases w.signals.burned <;> simp
  | stopped => simp
  | accepting =>
    cases hb : w.signals.burned with
    | true => simp
    | false =>
      cases hl : w.listenerClosed with
      | true => simp
      | false =>
        cases hq : w.backlog with
        | nil => simp
        | cons arrival rest => cases arrival <;> simp

theorem toll_le (c : Connection) : c.toll ≤ turnLimit := by
  unfold Connection.toll
  split <;> decide

/-- To be still can be found out by looking at each task once. -/
theorem still_of_movable (h : w.refreshed.movable = []) : w.Still := by
  intro task
  cases hm : w.refreshed.move task with
  | none => rfl
  | some v =>
    have hmem := mem_movable (show (w.refreshed.move task).isSome = true by rw [hm]; rfl)
    rw [h] at hmem
    cases hmem

/-- An acceptor at rest has stopped, or nothing waits for it, or the fuse is burned. -/
theorem acceptor_at_rest (rest : w.refreshed.move .acceptor = none) :
    w.acceptor = .stopped ∨
      w.listenerClosed = false ∧
        (w.acceptor = .holding ∧ w.signals.burned = true ∨
          w.acceptor = .accepting ∧ w.signals.burned = false ∧ w.backlog = []) := by
  rcases stepAcceptor_eq_none_iff.mp rest with hs | ⟨hl, hh | ⟨ha, hb, hq⟩⟩
  · exact .inl hs
  · exact .inr ⟨hl, .inl hh⟩
  · refine .inr ⟨hl, .inr ⟨ha, hb, ?_⟩⟩
    cases hw : w.backlog with
    | nil => rfl
    | cons arrival rest =>
      obtain ⟨c, _, hlt⟩ := hq arrival rest hw
      exact absurd (toll_le c) (Nat.not_le.mpr hlt)

theorem handler_at_rest (rest : w.refreshed.move (.connection c.id) = none) (numbers : w.ids.Nodup)
    (hc : c ∈ w.connections) : c.hear.step w.signals w.sink turnLimit = none := by
  have hid : (w.connections.map Connection.hear).map Connection.id = w.connections.map Connection.id := by
    rw [List.map_map]
    exact congrFun (congrArg List.map (funext Connection.hear_id)) w.connections
  have hnone : (stepAmong c.hear.id w.signals w.sink turnLimit (w.connections.map Connection.hear)) =
      none := c.hear_id.symm ▸ Option.map_eq_none_iff.mp rest
  cases hs : c.hear.step w.signals w.sink turnLimit with
  | none => rfl
  | some g =>
    have := stepAmong_of_mem (List.mem_map_of_mem hc) (hid ▸ nodup_connections numbers)
      (by rw [hs]; rfl)
    rw [hnone] at this
    cases this

/-- Nobody outlasts a signal to stop. -/
theorem Still.isEnded (h : w.Still) (numbers : w.ids.Nodup) {outcome : Outcome}
    (stop : w.signals.stop? = some outcome) (hc : c ∈ w.connections) : c.isEnded = true := by
  cases he : c.isEnded with
  | true => rfl
  | false =>
    have := Connection.step_of_stop stop (c.hear_isEnded.trans he) w.sink turnLimit
    rw [handler_at_rest (h (.connection c.id)) numbers hc] at this
    cases this

/-- To hear means something only to those who run and have not heard. -/
theorem stepAmong_hear {cs : List Connection} (heard : ∀ c ∈ cs, c.isUnheard = false) (id : Nat)
    (h : stepAmong id signals sink left cs = none) :
    stepAmong id signals sink left (cs.map Connection.hear) = none := by
  induction cs with
  | nil => rfl
  | cons c cs ih =>
    rw [stepAmong] at h
    rw [List.map_cons, stepAmong, c.hear_id]
    split
    · rename_i hid
      rw [if_pos hid] at h
      rw [Option.map_eq_none_iff] at h ⊢
      cases he : c.isEnded with
      | true => exact Connection.step_of_ended (c.hear_isEnded.trans he)
      | false =>
        rw [Connection.hear_of_heard (heard c List.mem_cons_self) he]
        exact h
    · rename_i hid
      rw [if_neg hid, Option.map_eq_none_iff] at h
      rw [Option.map_eq_none_iff]
      exact ih (fun d hd => heard d (List.mem_cons_of_mem c hd)) h

/-- Where nobody has a turn, no effort is spent. -/
def Fresh (w : Intake) : Prop := w.awake = [] → w.spent = 0

theorem move_awake {task : Task} (h : w.move task = some v) : w.awake <+: v.awake := by
  cases task with
  | acceptor =>
    cases stepAcceptor_steps h with
    | started | stopped | held | began | cleared | abandoned => exact List.prefix_refl _
    | accepted => exact List.prefix_append _ _
    | failed accepting listening next clear =>
      rename_i e rest
      obtain ⟨metrics, notices, he⟩ := failAccept_frame { w with backlog := rest } e
      have hawake : (({ w with backlog := rest } : Intake).failAccept e).awake = w.awake := by rw [he]
      exact ⟨[], (List.append_nil _).trans hawake.symm⟩
  | connection id =>
    obtain ⟨front, c, back, g, _, _, _, rfl⟩ := stepConnection_split h
    exact List.prefix_refl _

theorem fresh_of_awake (h : w.awake ≠ []) : w.Fresh := fun he => absurd he h

theorem Fresh.step (h : w.Fresh) (hs : w.step = some v) : v.Fresh := by
  unfold Intake.step at hs
  split at hs
  · rename_i task rest ha
    obtain rfl := Option.some.inj hs
    cases hm : w.move task with
    | some v =>
      obtain ⟨more, hmore⟩ := move_awake hm
      apply fresh_of_awake
      rw [Option.getD_some, ← hmore, ha]
      simp
    | none =>
      intro _
      simp only [Option.getD_none, endTurn, ha]
      split <;> rfl
  · rename_i ha
    split at hs
    · obtain rfl := Option.some.inj hs
      intro _
      exact h ha
    · obtain ⟨task, _, ht⟩ := List.exists_of_findSome?_eq_some hs
      obtain ⟨u, hm, rfl⟩ := Option.map_eq_some_iff.mp ht
      exact fresh_of_awake (by simp)

/-- The scheduler stops only where nothing can move. -/
theorem still_settle (h : w.Fresh) : w.settle.Still := by
  have hfresh : w.settle.Fresh := restless.rest_induction (fun _ _ h hs => Fresh.step h hs) h
  have hnone : w.settle.step = none := restless.step_rest w
  generalize w.settle = v at hfresh hnone
  have hmove := move_eq_none hnone
  unfold Intake.step at hnone
  split at hnone
  · contradiction
  · rename_i ha
    have hspent := hfresh ha
    split at hnone
    · contradiction
    · rename_i hu
      have hheard : ∀ c ∈ v.connections, c.isUnheard = false := by simpa using hu
      intro task
      cases task with
      | acceptor =>
        have hleft : v.refreshed.left = v.left := by rw [left, left, hspent]; rfl
        have := stepAcceptor_eq_none_iff.mp (hmove .acceptor)
        refine stepAcceptor_eq_none_iff.mpr ?_
        rw [hleft]
        exact this
      | connection id =>
        have hw := Option.map_eq_none_iff.mp (hmove (.connection id))
        refine Option.map_eq_none_iff.mpr ?_
        have hleft : v.left = turnLimit := by rw [left, hspent, Nat.sub_zero]
        rw [hleft] at hw
        exact stepAmong_hear hheard id hw

end Intake

end FrameIntake
