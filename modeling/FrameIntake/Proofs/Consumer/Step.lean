import FrameIntake.Consumer
import FrameIntake.Proofs.Intake.Peers

/-!
What one step of a consumer keeps, its own (`Kept.advance`) and those of its tasks (`Kept.act`), and that
nothing can keep a consumer that was told to stop: wherever its tasks are, one of them moves until all are
over (`Kept.unstuck`).
-/

namespace FrameIntake

/-- The consumer has not seen that it was told to stop. -/
def Stage.isOpen : Stage → Bool
  | serving | lingering => true
  | joining | draining | finished => false

namespace Consumer

variable {c d : Consumer}

/-- What holds of a consumer at any time. -/
structure Kept (c : Consumer) : Prop where
  numbers : c.intake.ids.Nodup
  waiting : ∀ k, .connection k ∈ c.intake.backlog → k.phase = .unstarted
  serves : c.stage.isOpen = true →
    c.intake.signals.cancelled = false ∧ c.intake.listenerClosed = false
  stops : c.stage.isOpen = false →
    c.stopping = true ∧ c.intake.signals.cancelled = true ∧ c.intake.listenerClosed = true
  shutdowns : ∀ k ∈ c.intake.connections, k.phase = .ended (.outcome .shutdown) →
    c.intake.signals.cancelled = true
  joined : .acceptor ∉ c.stage.awaits → c.intake.acceptor = .stopped
  ended : c.stage = .finished → ∀ k ∈ c.intake.connections, k.isEnded = true

theorem kept_launch (config : Config) (listener : Listener) (host : Host) (fuse : Fuse) (turnable : Bool)
    (sink : Sink) (audience : Audience) (notices : List Notice) :
    (launch config listener host { fuse, turnable } sink audience notices).Kept := by
  refine ⟨List.nodup_nil, ?_, fun _ => ⟨rfl, rfl⟩, ?_, ?_, ?_, ?_⟩
  · intro k hk
    cases hk
  · intro h
    cases h
  · intro k hk
    cases hk
  · intro h
    simp [launch, Stage.awaits] at h
  · intro h
    cases h

theorem Kept.stop (h : c.Kept) : c.stop.Kept :=
  ⟨h.numbers, h.waiting, h.serves, fun hs => ⟨rfl, (h.stops hs).2⟩, h.shutdowns, h.joined, h.ended⟩

/-- What the consumer itself does in a step. -/
theorem Kept.advance (h : c.Kept) (hd : c.advance = some d) : d.Kept := by
  cases advance_advances hd with
  | told serving stopping =>
    refine ⟨h.numbers, h.waiting, ?_, fun _ => ⟨stopping, rfl, rfl⟩, fun _ _ _ => rfl, ?_, ?_⟩
    · intro ho
      cases ho
    · intro ha
      simp [shutDown, Stage.awaits] at ha
    · intro hf
      cases hf
  | left serving waiting stopped =>
    have hserves := h.serves (by rw [serving]; rfl)
    refine ⟨h.numbers, h.waiting, fun _ => hserves, ?_, h.shutdowns, fun _ => stopped, ?_⟩
    · intro ho
      cases ho
    · intro hf
      cases hf
  | toldLate lingering stopping =>
    have ha := h.joined (by simp [lingering, Stage.awaits])
    refine ⟨h.numbers, h.waiting, ?_, fun _ => ⟨stopping, rfl, rfl⟩, fun _ _ _ => rfl, fun _ => ha, ?_⟩
    · intro ho
      cases ho
    · intro hf
      cases hf
  | joined joining stopped =>
    have hstops := h.stops (by rw [joining]; rfl)
    refine ⟨h.numbers, h.waiting, ?_, fun _ => hstops, h.shutdowns, fun _ => stopped, ?_⟩
    · intro ho
      cases ho
    · intro hf
      cases hf
  | drained draining drained =>
    have hstops := h.stops (by rw [draining]; rfl)
    simp only [isDrained, Bool.and_eq_true, decide_eq_true_eq, List.all_eq_true] at drained
    refine ⟨h.numbers, h.waiting, ?_, fun _ => hstops, h.shutdowns, fun _ => drained.1,
      fun _ => drained.2⟩
    intro ho
    cases ho

/-- What the tasks do, and what happens to them. -/
theorem Kept.act (h : c.Kept) {deed : Intake.Deed}
    (admitted : c.intake.admits c.config.partitioner c.config.stream deed = true)
    (open_ : deed.isPrivate = false) : ({ c with intake := c.intake.act deed } : Consumer).Kept := by
  obtain ⟨hcancelled, hclosed⟩ := c.intake.act_signals open_
  refine ⟨Intake.nodup_act h.numbers admitted, ?_, ?_, ?_, ?_, ?_, ?_⟩
  · intro k hk
    rcases c.intake.act_backlog deed hk with ⟨d, hd, rfl | ⟨read, rfl⟩⟩ | rfl
    · exact h.waiting k hd
    · rw [d.arrive_phase read]
      exact h.waiting d hd
    · simp only [Intake.admits, Bool.and_eq_true, decide_eq_true_eq] at admitted
      rw [admitted.2]
      rfl
  · intro ho
    rw [hcancelled, hclosed]
    exact h.serves ho
  · intro ho
    rw [hcancelled, hclosed]
    exact h.stops ho
  · intro k hk hp
    rw [hcancelled]
    rcases c.intake.act_connections deed hk with ⟨d, hd, hb⟩ | ⟨_, hw⟩
    · rcases hb.shutdown hp with hp | hsignal
      · exact h.shutdowns d hd hp
      · exact hsignal
    · rw [h.waiting k hw] at hp
      cases hp
  · intro ha
    exact Intake.act_stopped (h.joined ha)
  · intro hf k hk
    have hf : c.stage = .finished := hf
    have hstopped := h.joined (by simp [hf, Stage.awaits])
    rcases c.intake.act_connections deed hk with ⟨d, hd, hb⟩ | ⟨hrunning, _⟩
    · exact hb.isEnded (h.ended hf d hd)
    · exact absurd hstopped hrunning

/-- There is no stuck state: where nothing can move, all is over. -/
theorem Kept.unstuck (h : c.Kept) (stopping : c.stopping = true) (still : ∀ actor, c.move actor = none) :
    c.stage = .finished ∧ c.intake.acceptor = .stopped ∧
      ∀ k ∈ c.intake.connections, k.isEnded = true := by
  have hmain : c.advance = none := still .main
  have htask (task : Task) : c.intake.move task = none := by
    have := still (.task task)
    simpa [move] using this
  cases hs : c.stage with
  | serving =>
    rw [advance_serving hs, if_pos stopping] at hmain
    contradiction
  | lingering =>
    rw [advance_lingering hs, if_pos stopping] at hmain
    contradiction
  | joining =>
    obtain ⟨_, _, hclosed⟩ := h.stops (by rw [hs]; rfl)
    rw [advance_joining hs] at hmain
    split at hmain
    · contradiction
    · rename_i ha
      have := Intake.stepAcceptor_of_closed hclosed ha
      have hnone : c.intake.stepAcceptor = none := htask .acceptor
      simp [hnone] at this
  | draining =>
    obtain ⟨_, hcancelled, _⟩ := h.stops (by rw [hs]; rfl)
    have ha := h.joined (by simp [hs, Stage.awaits])
    have hall : ∀ k ∈ c.intake.connections, k.isEnded = true := by
      intro k hk
      cases he : k.isEnded with
      | true => rfl
      | false =>
        have := Intake.move_of_cancelled hcancelled h.numbers hk he
        simp [htask] at this
    have hdrained : c.isDrained = true := by
      simp only [isDrained, Bool.and_eq_true, decide_eq_true_eq, List.all_eq_true]
      exact ⟨ha, hall⟩
    rw [advance_draining hs, if_pos hdrained] at hmain
    contradiction
  | finished =>
    exact ⟨rfl, h.joined (by simp [hs, Stage.awaits]), h.ended hs⟩

end Consumer

end FrameIntake
