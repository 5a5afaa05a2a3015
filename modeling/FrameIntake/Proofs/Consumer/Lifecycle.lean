import FrameIntake.Proofs.Consumer.Step

/-!
The life of a consumer from its launch on. It goes on until it is told to stop, stops no handler before
that, and leaves none behind; what it waits for is asked for no more once it is done (`Kept.lawful`). A
consumer does not run its tasks in any order, but its order is one of those that a life may have
(`exists_settle`).
-/

namespace FrameIntake

namespace Consumer

variable {c d : Consumer}

/-- The consumer looks at one thing after the other until one is done. -/
def look (c : Consumer) : List Awaited → List (Awaited × Bool)
  | [] => []
  | awaited :: rest =>
    if c.isDone awaited then [(awaited, true)] else (awaited, false) :: c.look rest

/-- What the consumer looks at in a step of its own, and whether it finds it done. -/
def looks (c : Consumer) : List (Awaited × Bool) := c.look c.stage.awaits

/-- Nothing is looked at again after it was done. -/
def Once (looks : List (Awaited × Bool)) : Prop :=
  looks.Pairwise fun first later => first.2 = true → later.1 ≠ first.1

theorem mem_of_look {awaits : List Awaited} {seen : Awaited × Bool} (h : seen ∈ c.look awaits) :
    seen.1 ∈ awaits := by
  induction awaits with
  | nil => cases h
  | cons awaited rest ih =>
    rw [look] at h
    split at h
    · rw [List.mem_singleton.mp h]
      exact List.mem_cons_self
    · rcases List.mem_cons.mp h with rfl | h
      · exact List.mem_cons_self
      · exact List.mem_cons_of_mem awaited (ih h)

theorem once_look (c : Consumer) (awaits : List Awaited) : Once (c.look awaits) := by
  induction awaits with
  | nil => exact List.Pairwise.nil
  | cons awaited rest ih =>
    rw [look]
    split
    · exact List.pairwise_singleton _ _
    · apply List.Pairwise.cons _ ih
      intro later _ hdone
      cases hdone

/-- What a look finds done is what the consumer goes on with. -/
theorem done_look_iff (awaits : List Awaited) (awaited : Awaited) :
    (awaited, true) ∈ c.look awaits ↔ awaits.find? c.isDone = some awaited := by
  induction awaits with
  | nil => simp [look]
  | cons first rest ih =>
    rw [look, List.find?_cons]
    cases hd : c.isDone first with
    | true => simp [eq_comm]
    | false => simpa using ih

theorem done_looks_iff (awaited : Awaited) :
    (awaited, true) ∈ c.looks ↔ c.completed? = some awaited :=
  done_look_iff c.stage.awaits awaited

theorem completed?_of_advance (h : c.advance = none) : c.completed? = none := by
  cases hs : c.stage with
  | serving | lingering | joining => simpa [advance, hs] using h
  | draining | finished => simp [completed?, hs, Stage.awaits]

/-- In a step, the consumer is done with what it went on with and with nothing else. -/
theorem awaits_of_advance (h : c.advance = some d) (awaited : Awaited) :
    awaited ∈ d.stage.awaits ↔ awaited ∈ c.stage.awaits ∧ c.completed? ≠ some awaited := by
  have hstop : c.isDone .stop = c.stopping := rfl
  have hacceptor : c.isDone .acceptor = decide (c.intake.acceptor = .stopped) := rfl
  cases advance_advances h with
  | told serving stopping =>
    cases awaited <;> simp [completed?, serving, shutDown, Stage.awaits, hstop, stopping]
  | left serving waiting stopped =>
    cases awaited <;>
      simp [completed?, serving, report, Stage.awaits, hstop, waiting, hacceptor, stopped]
  | toldLate lingering stopping =>
    cases awaited <;> simp [completed?, lingering, shutDown, Stage.awaits, hstop, stopping]
  | joined joining stopped =>
    cases awaited <;> simp [completed?, joining, Stage.awaits, hacceptor, stopped]
  | drained draining =>
    simp [draining, finish, report, Stage.awaits]

theorem Once.count_le_one {looks : List (Awaited × Bool)} (h : Once looks) (awaited : Awaited) :
    looks.count (awaited, true) ≤ 1 := by
  induction looks with
  | nil => exact Nat.zero_le 1
  | cons first rest ih =>
    rw [Once, List.pairwise_cons] at h
    rw [List.count_cons]
    split
    · rename_i he
      rw [beq_iff_eq] at he
      have habsent : (awaited, true) ∉ rest := by
        intro hm
        exact h.1 _ hm (by rw [he]) (by rw [he])
      exact Nat.le_of_eq (congrArg (· + 1) (List.count_eq_zero_of_not_mem habsent))
    · exact ih h.2

theorem advance_stopping (h : c.advance = some d) : d.stopping = c.stopping := by
  cases advance_advances h with
  | told | left | toldLate | joined | drained => rfl

theorem settle_stopping (c : Consumer) : c.settle.stopping = c.stopping := by
  apply restless.rest_induction (P := fun d => d.stopping = c.stopping) _ rfl
  intro d e hd hstep
  rw [← hd]
  have hstep : d.step = some e := hstep
  unfold step at hstep
  split at hstep
  · obtain rfl := Option.some.inj hstep
    exact advance_stopping ‹_›
  · obtain ⟨w, _, rfl⟩ := Option.map_eq_some_iff.mp hstep
    rfl

theorem move_weight {actor : Actor} (h : c.move actor = some d) : d.weight < c.weight := by
  cases actor with
  | main => exact advance_weight h
  | task task =>
    obtain ⟨w, hw, rfl⟩ := Option.map_eq_some_iff.mp h
    have := Intake.move_weight hw
    simp only [weight]
    omega

/-- At rest nothing can move, the consumer as little as its tasks. -/
theorem move_settle (c : Consumer) (actor : Actor) : c.settle.move actor = none := by
  have hrest : c.settle.step = none := restless.step_rest c
  unfold step at hrest
  split at hrest
  · contradiction
  · rename_i hadvance
    cases actor with
    | main => exact hadvance
    | task task =>
      have := Intake.move_eq_none (Option.map_eq_none_iff.mp hrest) task
      simp [move, this]

end Consumer

/-- A consumer with everything that it has looked at. -/
structure Life where
  consumer : Consumer
  looks : List (Awaited × Bool) := []

namespace Life

inductive Act
  | main
  | stop
  | deed (deed : Intake.Deed)
  /-- What other programs do to the host, and what is reported and collected. -/
  | outside (host : Host) (notices : List Notice)

/-- Only the consumer itself cancels its handlers and closes its listener. -/
def act (l : Life) : Act → Life
  | .main => { consumer := l.consumer.advance.getD l.consumer, looks := l.looks ++ l.consumer.looks }
  | .stop => { l with consumer := l.consumer.stop }
  | .deed deed =>
    if l.consumer.intake.admits l.consumer.config.partitioner l.consumer.config.stream deed &&
        !deed.isPrivate then
      { l with consumer := { l.consumer with intake := l.consumer.intake.act deed } }
    else l
  | .outside host notices =>
    { l with consumer := { l.consumer with host, intake := { l.consumer.intake with notices } } }

def run (l : Life) (acts : List Act) : Life := acts.foldl act l

/-- The sink may be of any kind, and the fuse in any position. -/
def launch (config : Config) (listener : Listener) (host : Host) (fuse : Fuse) (turnable : Bool)
    (sink : Sink) (audience : Audience) (notices : List Notice) : Life :=
  { consumer := Consumer.launch config listener host { fuse, turnable } sink audience notices }

variable {l : Life}

/-- What holds of a life at any time. -/
structure Kept (l : Life) : Prop where
  consumer : l.consumer.Kept
  once : Consumer.Once l.looks
  done : ∀ awaited, (awaited, true) ∈ l.looks ↔ awaited ∉ l.consumer.stage.awaits

theorem kept_launch (config : Config) (listener : Listener) (host : Host) (fuse : Fuse) (turnable : Bool)
    (sink : Sink) (audience : Audience) (notices : List Notice) :
    (launch config listener host fuse turnable sink audience notices).Kept := by
  refine ⟨Consumer.kept_launch config listener host fuse turnable sink audience notices,
    List.Pairwise.nil, ?_⟩
  intro awaited
  cases awaited <;> simp [launch, Consumer.launch, Stage.awaits]

theorem Kept.main (h : l.Kept) : (l.act .main).Kept := by
  have honce : Consumer.Once (l.looks ++ l.consumer.looks) := by
    apply List.pairwise_append.mpr
    refine ⟨h.once, Consumer.once_look _ _, ?_⟩
    intro first hfirst later hlater hdone he
    apply (h.done first.1).mp (hdone ▸ hfirst)
    exact he ▸ Consumer.mem_of_look hlater
  cases hadvance : l.consumer.advance with
  | none =>
    have hnone := Consumer.completed?_of_advance hadvance
    refine ⟨?_, honce, ?_⟩
    · simpa [act, hadvance] using h.consumer
    · intro awaited
      simp [act, hadvance, Consumer.done_looks_iff, hnone, h.done]
  | some next =>
    have hawaits := Consumer.awaits_of_advance hadvance
    refine ⟨?_, honce, ?_⟩
    · simpa [act, hadvance] using h.consumer.advance hadvance
    · intro awaited
      simp only [act, hadvance, Option.getD_some, List.mem_append, Consumer.done_looks_iff, h.done,
        hawaits, ne_eq, Classical.not_and_iff_not_or_not, Classical.not_not]

theorem Kept.act (h : l.Kept) (act : Act) : (l.act act).Kept := by
  cases act with
  | main => exact h.main
  | stop => exact ⟨h.consumer.stop, h.once, h.done⟩
  | deed deed =>
    rw [Life.act]
    split
    · rename_i hdeed
      simp only [Bool.and_eq_true, Bool.not_eq_true'] at hdeed
      exact ⟨h.consumer.act hdeed.1 hdeed.2, h.once, h.done⟩
    · exact h
  | outside host notices =>
    obtain ⟨hnumbers, hwaiting, hserves, hstops, hshutdowns, hjoined, hended⟩ := h.consumer
    exact ⟨⟨hnumbers, hwaiting, hserves, hstops, hshutdowns, hjoined, hended⟩, h.once, h.done⟩

theorem Kept.run (h : l.Kept) (acts : List Act) : (l.run acts).Kept := by
  induction acts generalizing l with
  | nil => exact h
  | cons act acts ih =>
    rw [Life.run, List.foldl_cons]
    exact ih (h.act act)

theorem run_deeds {deeds : List Intake.Deed} (inner : ∀ deed ∈ deeds, deed.isInner = true) :
    (l.run (deeds.map .deed)).consumer =
      { l.consumer with intake := deeds.foldl Intake.act l.consumer.intake } := by
  induction deeds generalizing l with
  | nil => rfl
  | cons deed deeds ih =>
    have hinner := inner deed List.mem_cons_self
    have hadmitted := l.consumer.intake.admits_of_inner l.consumer.config.partitioner
      l.consumer.config.stream hinner
    have hact : (l.act (.deed deed)).consumer =
        { l.consumer with intake := l.consumer.intake.act deed } := by
      simp [act, hadmitted, Intake.isPrivate_of_inner hinner]
    have := ih (l := l.act (.deed deed)) fun d hd => inner d (List.mem_cons_of_mem deed hd)
    rw [hact] at this
    exact this

/-- What a consumer does until it is at rest is part of a life. -/
theorem exists_settle (l : Life) : ∃ acts, (l.run acts).consumer = l.consumer.settle := by
  apply Consumer.restless.rest_induction (P := fun d => ∃ acts, (l.run acts).consumer = d) _ ⟨[], rfl⟩
  rintro c d ⟨acts, rfl⟩ hstep
  have hstep : (l.run acts).consumer.step = some d := hstep
  unfold Consumer.step at hstep
  split at hstep
  · rename_i next hadvance
    obtain rfl := Option.some.inj hstep
    refine ⟨acts ++ [.main], ?_⟩
    rw [run, List.foldl_append]
    show ((l.run acts).act .main).consumer = next
    rw [act, hadvance, Option.getD_some]
  · obtain ⟨w, hw, rfl⟩ := Option.map_eq_some_iff.mp hstep
    obtain ⟨deeds, hinner, rfl⟩ := (Intake.Leads.refl _).step hw
    refine ⟨acts ++ deeds.map .deed, ?_⟩
    rw [run, List.foldl_append]
    exact run_deeds hinner

theorem Kept.settle (h : l.Kept) : l.consumer.settle.Kept := by
  obtain ⟨acts, he⟩ := l.exists_settle
  rw [← he]
  exact (h.run acts).consumer

/-- What is promised of a consumer. -/
structure Lawful (l : Life) : Prop where
  /-- It does not end before it is told to. -/
  serves : l.consumer.stopping = false → l.consumer.isFinished = false
  spares : l.consumer.stopping = false →
    l.consumer.intake.signals.cancelled = false ∧ l.consumer.intake.listenerClosed = false ∧
      ∀ k ∈ l.consumer.intake.connections, k.phase ≠ .ended (.outcome .shutdown)
  /-- An acceptor that stops takes no handler with it. -/
  alone : ∀ w, l.consumer.intake.move .acceptor = some w → w.acceptor = .stopped →
    w.connections = l.consumer.intake.connections ∧ w.signals = l.consumer.intake.signals
  /-- It leaves nothing behind. -/
  ends : l.consumer.isFinished = true →
    l.consumer.intake.acceptor = .stopped ∧
      (∀ k ∈ l.consumer.intake.connections, k.isEnded = true) ∧
      l.consumer.intake.signals.cancelled = true ∧ l.consumer.intake.listenerClosed = true
  /-- Once it is told to end, it is over wherever nothing can move. -/
  unstuck : l.consumer.stopping = true → (∀ actor, l.consumer.move actor = none) →
    l.consumer.isFinished = true ∧ l.consumer.intake.acceptor = .stopped ∧
      ∀ k ∈ l.consumer.intake.connections, k.isEnded = true
  /-- In whatever order its tasks have their turns, they come to such a state. -/
  falls : ∀ actor next, l.consumer.move actor = some next → next.weight < l.consumer.weight
  settles : l.consumer.stopping = true → l.consumer.settle.isFinished = true
  once : Consumer.Once l.looks
  consumes : l.consumer.isFinished = true → ∀ awaited, l.looks.count (awaited, true) = 1

theorem Kept.lawful (h : l.Kept) : l.Lawful := by
  have hopen (hstopping : l.consumer.stopping = false) : l.consumer.stage.isOpen = true := by
    cases ho : l.consumer.stage.isOpen with
    | true => rfl
    | false =>
      have := (h.consumer.stops ho).1
      rw [hstopping] at this
      cases this
  have hfinished (hf : l.consumer.isFinished = true) : l.consumer.stage = .finished := by
    simpa [Consumer.isFinished] using hf
  refine ⟨?_, ?_, ?_, ?_, ?_, fun _ _ => Consumer.move_weight, ?_, h.once, ?_⟩
  · intro hstopping
    have := hopen hstopping
    cases hf : l.consumer.isFinished with
    | false => rfl
    | true => simp [hfinished hf, Stage.isOpen] at this
  · intro hstopping
    obtain ⟨hcancelled, hlistening⟩ := h.consumer.serves (hopen hstopping)
    refine ⟨hcancelled, hlistening, ?_⟩
    intro k hk hp
    have := h.consumer.shutdowns k hk hp
    rw [hcancelled] at this
    cases this
  · intro w hw hstopped
    exact Intake.stepAcceptor_alone hw hstopped
  · intro hf
    have hstage := hfinished hf
    have hstops := h.consumer.stops (by rw [hstage]; rfl)
    exact ⟨h.consumer.joined (by simp [hstage, Stage.awaits]), h.consumer.ended hstage, hstops.2⟩
  · intro hstopping still
    obtain ⟨hstage, hstopped, hended⟩ := h.consumer.unstuck hstopping still
    exact ⟨by simp [Consumer.isFinished, hstage], hstopped, hended⟩
  · intro hstopping
    have hstage := (h.settle.unstuck (l.consumer.settle_stopping.trans hstopping)
      l.consumer.move_settle).1
    simp [Consumer.isFinished, hstage]
  · intro hf awaited
    have hdone : (awaited, true) ∈ l.looks := by
      apply (h.done awaited).mpr
      simp [hfinished hf, Stage.awaits]
    exact Nat.le_antisymm (h.once.count_le_one awaited) (List.count_pos_iff.mpr hdone)

/-- In any life, whatever happens and in whatever order. -/
theorem run_lawful (config : Config) (listener : Listener) (host : Host) (fuse : Fuse) (turnable : Bool)
    (sink : Sink) (audience : Audience) (notices : List Notice) (acts : List Act) :
    ((launch config listener host fuse turnable sink audience notices).run acts).Lawful :=
  ((kept_launch config listener host fuse turnable sink audience notices).run acts).lawful

end Life

end FrameIntake
