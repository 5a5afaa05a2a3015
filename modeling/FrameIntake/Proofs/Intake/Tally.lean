import FrameIntake.Proofs.Connection.Dues
import FrameIntake.Proofs.Intake.Ledger

/-!
The counters of a run. They tell of all handlers, those that have ended included, and of the messages that
the sink has accepted (`counters_account`).
-/

namespace FrameIntake

namespace Intake

variable {w v : Intake} {p : Partitioner} {stream : String}

/-- No handler has touched a connection that waits to be accepted. -/
def Unopened (p : Partitioner) (stream : String) (w : Intake) : Prop :=
  ∀ c, .connection c ∈ w.backlog →
    ∃ source arrived, c = { Connection.start c.id c.peer p stream with source, arrived }

theorem Unopened.act (h : w.Unopened p stream) {deed : Deed} (admitted : w.admits p stream deed = true) :
    (w.act deed).Unopened p stream := by
  intro c hc
  rcases act_backlog w deed hc with ⟨b, hb, rfl | ⟨read, rfl⟩⟩ | rfl
  · exact h c hb
  · obtain ⟨source, arrived, he⟩ := h b hb
    obtain ⟨arrived', ha, _⟩ := Chronicle.arrive_eq b read
    refine ⟨source, arrived', ?_⟩
    rw [ha, he]
    rfl
  · simp only [admits, Bool.and_eq_true, decide_eq_true_eq] at admitted
    exact ⟨c.source, [], admitted.2⟩

/-- The only thing that an acceptor counts is the error that ends it. -/
theorem stepAcceptor_metrics (h : w.stepAcceptor = some v) :
    v.metrics = w.metrics ∨
      w.acceptor ≠ .stopped ∧ v.acceptor = .stopped ∧
        v.metrics = w.metrics.record (.error .accept) := by
  cases stepAcceptor_steps h with
  | started | stopped | held | began | cleared | abandoned | accepted => exact .inl rfl
  | failed accepting listening next clear =>
    rename_i e rest
    unfold failAccept
    split
    · exact .inl rfl
    · exact .inr ⟨by simp [accepting], rfl, rfl⟩

/-- A connection comes from the backlog as it was there. -/
theorem stepAcceptor_opens (h : w.stepAcceptor = some v) :
    v.connections = w.connections ∨
      ∃ c, .connection c ∈ w.backlog ∧ v.connections = w.connections ++ [c] := by
  cases stepAcceptor_steps h with
  | started | stopped | held | began | cleared | abandoned => exact .inl rfl
  | accepted accepting listening next clear => exact .inr ⟨_, by simp [next], rfl⟩
  | failed accepting listening next clear =>
    rename_i e rest
    obtain ⟨metrics, notices, he⟩ := failAccept_frame { w with backlog := rest } e
    rw [he]
    exact .inl rfl

/-- Only tasks count. -/
theorem act_metrics (w : Intake) {deed : Deed} (h : ∀ task, deed ≠ .move task) :
    (w.act deed).metrics = w.metrics ∧ (w.act deed).acceptor = w.acceptor := by
  cases deed with
  | move task => exact absurd rfl (h task)
  | hear | drain | arrange awake spent turns paused => exact ⟨rfl, rfl⟩
  | occur event =>
    cases event with
    | receive count =>
      obtain ⟨awake, hact⟩ := w.act_receive count
      rw [hact]
      exact ⟨rfl, rfl⟩
    | connect c | acceptError e | arrive id read | turnFuse burned | letGoOfFuse | cancel
    | closeListener | closeSink => exact ⟨rfl, rfl⟩

end Intake

namespace Ledger

open Intake (Deed)

variable {p : Partitioner} {stream : String} {w v : Intake} {sent sent' : Nat → Bytes}
variable {accepted : List Delivery} {c : Connection}

/-- The bytes that the handler of `c` has read, of those that were sent to it. -/
def readOf (sent : Nat → Bytes) (c : Connection) : Bytes :=
  (sent c.id).take ((sent c.id).length - c.unread)

/-- Where a handler stands, with the bytes that it has read. -/
def standing (sent : Nat → Bytes) (c : Connection) : Nat × Phase × Bytes :=
  (c.id, c.phase, readOf sent c)

/-- How many of them stand behind the last whole frame. -/
def leftover (p : Partitioner) (sent : Nat → Bytes) (c : Connection) : Nat :=
  (p.cut (readOf sent c)).rest.length

def duesOf (p : Partitioner) (sent : Nat → Bytes) (c : Connection) : List Metric :=
  c.phase.dues (leftover p sent c)

def chargeOf (p : Partitioner) (sent : Nat → Bytes) (c : Connection) : Option Metric :=
  c.phase.charge (leftover p sent c)

/-- What the counters tell. -/
structure Tallied (p : Partitioner) (w : Intake) (sent : Nat → Bytes) (accepted : List Delivery) :
    Prop where
  dues : ∀ metric, metric ≠ .messageRouted → metric ≠ .error .accept →
    w.metrics.count metric = (w.connections.map (duesOf p sent)).flatten.count metric
  routed : w.metrics.messages = accepted.length
  refused : w.metrics.errors .accept = 0 ∨
    w.metrics.errors .accept = 1 ∧ w.acceptor = .stopped

theorem unread_arrive (c : Connection) (read : Read) :
    (c.arrive read).unread = c.unread + read.size := by
  unfold Connection.arrive Connection.unread
  split
  · rw [total_append]
    rfl
  · exact Read.total_size_joinTo c.arrived read

/-- What arrives is not read yet. -/
theorem standing_arrive (read : Read) (hs : sent' c.id = sent c.id ++ read.bytes) :
    standing sent' (c.arrive read) = standing sent c := by
  have hread : readOf sent' (c.arrive read) = readOf sent c := by
    rw [readOf, readOf, c.arrive_id read, hs, unread_arrive, List.length_append, Read.length_bytes,
      Nat.add_sub_add_right, List.take_append_of_le_length (Nat.sub_le _ _)]
  rw [standing, standing, c.arrive_id read, c.arrive_phase read, hread]

theorem standing_hear (c : Connection) : standing sent c.hear = standing sent c := by
  obtain ⟨source, hc⟩ := Chronicle.hear_eq c
  rw [hc]
  rfl

theorem standing_congr (hs : sent' c.id = sent c.id) : standing sent' c = standing sent c := by
  rw [standing, standing, readOf, readOf, hs]

/-- Nothing that happens from outside makes a difference to where the handlers stand. -/
theorem standings_act (w : Intake) (sent : Nat → Bytes) {deed : Deed} (h : ∀ task, deed ≠ .move task)
    (admitted : w.admits p stream deed = true) :
    (w.act deed).connections.map (standing (sentAfter sent deed)) =
      w.connections.map (standing sent) := by
  have hframe := w.act_frame deed
  cases deed with
  | move task => exact absurd rfl (h task)
  | hear =>
    rw [hframe.1, List.map_map]
    apply List.map_congr_left
    intro d _
    exact standing_hear d
  | drain | arrange awake spent turns paused => rfl
  | occur event =>
    cases event with
    | connect c =>
      rw [hframe.1]
      apply List.map_congr_left
      intro d hd
      simp only [Intake.admits, Bool.and_eq_true, decide_eq_true_eq] at admitted
      have hne : d.id ≠ c.id := by
        intro he
        exact admitted.1 (he ▸ List.mem_map_of_mem (List.mem_append_left _ hd))
      exact standing_congr (by simp [sentAfter, hne])
    | arrive id read =>
      rw [hframe.1, List.map_map]
      apply List.map_congr_left
      intro d _
      dsimp only [Function.comp]
      split
      · rename_i he
        exact standing_arrive read (by simp [sentAfter, he])
      · rename_i he
        exact standing_congr (by simp [sentAfter, he])
    | receive count | acceptError e | turnFuse burned | letGoOfFuse | cancel | closeListener
    | closeSink =>
      rw [hframe.1]
      rfl

theorem dues_act (w : Intake) {deed : Deed} (h : ∀ task, deed ≠ .move task)
    (admitted : w.admits p stream deed = true) :
    (w.act deed).connections.map (duesOf p (sentAfter sent deed)) =
      w.connections.map (duesOf p sent) := by
  -- What a handler is due is read off from where it stands.
  have := congrArg (List.map fun s => s.2.1.dues (p.cut s.2.2).rest.length)
    (standings_act w sent h admitted)
  rwa [List.map_map, List.map_map] at this

theorem Tallied.stepAcceptor (h : Tallied p w sent accepted) (hu : w.Unopened p stream)
    (hs : w.stepAcceptor = some v) : Tallied p v sent (accepted ++ w.sink.gained v.sink) := by
  obtain ⟨_, hsink, _⟩ := Intake.stepAcceptor_frame hs
  have hdues : (v.connections.map (duesOf p sent)).flatten =
      (w.connections.map (duesOf p sent)).flatten := by
    rcases Intake.stepAcceptor_opens hs with hc | ⟨c, hc, hv⟩
    · rw [hc]
    · obtain ⟨source, arrived, he⟩ := hu c hc
      have hnone : duesOf p sent c = [] := by
        rw [duesOf, he]
        rfl
      simp [hv, hnone]
  rw [hsink, gained_self, List.append_nil]
  rcases Intake.stepAcceptor_metrics hs with hm | ⟨running, stopped, hm⟩
  · refine ⟨?_, ?_, ?_⟩
    · rw [hm, hdues]
      exact h.dues
    · rw [hm]
      exact h.routed
    · rw [hm]
      apply h.refused.imp_right
      rintro ⟨_, ha⟩
      simp [Intake.stepAcceptor, ha] at hs
  · refine ⟨?_, ?_, ?_⟩
    · intro metric hr ha
      rw [hm, Metrics.count_record, hdues, ← h.dues metric hr ha]
      simp [Ne.symm ha]
    · rw [hm]
      exact h.routed
    · right
      rcases h.refused with hz | ⟨_, ha⟩
      · exact ⟨by simp [hm, Metrics.record, hz], stopped⟩
      · exact absurd ha running

/-- The bytes left over count as an error where the handler ends with its peer. -/
theorem Chronicled.trailing {signals : Signals} {sink : Sink} {left : Nat} {g : Handled}
    (h : Chronicled p stream sent accepted c) (hs : c.step signals sink left = some g)
    (closed : g.connection.phase = .ended (.outcome .peerClosed)) :
    0 < leftover p sent g.connection ↔ .error .trailingData ∈ g.metrics := by
  obtain ⟨ch, bytes, taken, hk, hc, hsent, _⟩ := h.kept
  obtain ⟨hid, _⟩ := Connection.step_sink hs
  rw [leftover, readOf, hid, ← hsent]
  exact hk.trailing (hc.symm ▸ hs) closed

theorem Tallied.stepConnection (h : Tallied p w sent accepted) (ht : Told p stream w sent accepted)
    {id : Nat} (hs : w.stepConnection id = some v) :
    Tallied p v sent (accepted ++ w.sink.gained v.sink) := by
  obtain ⟨front, c, back, g, hcs, _, hstep, rfl⟩ := Intake.stepConnection_split hs
  have hc : c ∈ w.peers := List.mem_append_left _ (by simp [hcs])
  have hmetrics : (w.handled (g.supervised c.phase) (front ++ g.connection :: back)).metrics =
      w.metrics.recordAll (g.supervised c.phase).metrics := rfl
  have hconn : (w.handled (g.supervised c.phase) (front ++ g.connection :: back)).connections =
      front ++ g.connection :: back := rfl
  have hcount (metric : Metric) (hr : metric ≠ .messageRouted) :
      (duesOf p sent g.connection).count metric =
        (duesOf p sent c).count metric + (g.supervised c.phase).metrics.count metric := by
    have := Connection.step_dues hstep _ ((ht.chronicled c hc).trailing hstep) (leftover p sent c)
    rw [duesOf, ← this, List.count_append, List.count_filter (by simpa using hr)]
    rfl
  refine ⟨?_, ?_, ?_⟩
  · intro metric hr ha
    rw [hmetrics, hconn, Metrics.count_recordAll, h.dues metric hr ha, hcs]
    simp only [List.map_append, List.map_cons, List.flatten_append, List.flatten_cons,
      List.count_append, hcount metric hr]
    omega
  · rw [Intake.handled_sink, List.length_append, ← Connection.step_routed hstep, ← h.routed]
    exact Metrics.count_recordAll _ _ .messageRouted
  · have hsame := Metrics.count_recordAll w.metrics (g.supervised c.phase).metrics (.error .accept)
    rw [Connection.step_accept hstep, Nat.add_zero] at hsame
    have hsame : (w.metrics.recordAll (g.supervised c.phase).metrics).errors .accept =
        w.metrics.errors .accept := hsame
    rw [hmetrics, hsame]
    exact h.refused

theorem Tallied.act (h : Tallied p w sent accepted) (ht : Told p stream w sent accepted)
    (hu : w.Unopened p stream) {deed : Deed} (admitted : w.admits p stream deed = true) :
    Tallied p (w.act deed) (sentAfter sent deed) (accepted ++ w.sink.gained (w.act deed).sink) := by
  by_cases hmove : ∃ task, deed = .move task
  · obtain ⟨task, rfl⟩ := hmove
    rw [Intake.act]
    cases hm : w.move task with
    | none =>
      rw [Option.getD_none, gained_self, List.append_nil]
      exact h
    | some v =>
      cases task with
      | acceptor => exact h.stepAcceptor hu hm
      | connection id => exact h.stepConnection ht hm
  · have hquiet : ∀ task, deed ≠ .move task := fun task he => hmove ⟨task, he⟩
    obtain ⟨hm, ha⟩ := w.act_metrics hquiet
    rw [gained_act w hquiet, List.append_nil]
    refine ⟨?_, ?_, ?_⟩
    · rw [hm, dues_act w hquiet admitted]
      exact h.dues
    · rw [hm]
      exact h.routed
    · rw [hm, ha]
      exact h.refused

/-- What holds of a ledger at any time. -/
structure Kept (p : Partitioner) (stream : String) (l : Ledger) : Prop where
  told : Told p stream l.intake l.sent l.accepted
  unopened : l.intake.Unopened p stream
  tallied : Tallied p l.intake l.sent l.accepted

theorem kept_start (p : Partitioner) (stream : String) (localAddress : Option String)
    (signals : Signals) (free : Option Nat) (fault : Option Fault) (closed : Bool) :
    (start localAddress signals free fault closed).Kept p stream := by
  refine ⟨told_start p stream localAddress signals free fault closed, ?_, ⟨?_, rfl, .inl rfl⟩⟩
  · intro c hc
    cases hc
  · intro metric _ _
    cases metric <;> rfl

theorem Kept.run {l : Ledger} (h : l.Kept p stream) (deeds : List Deed) :
    (l.run p stream deeds).Kept p stream := by
  apply run_keeps ?_ h
  intro l deed admitted h
  rw [act_of_admits admitted]
  exact ⟨told_act h.told admitted, h.unopened.act admitted, h.tallied.act h.told h.unopened admitted⟩

theorem count_dues {cs : List Connection} {metric : Metric} {q : Connection → Bool}
    (h : ∀ c ∈ cs, (duesOf p sent c).count metric = if q c then 1 else 0) :
    (cs.map (duesOf p sent)).flatten.count metric = cs.countP q := by
  induction cs with
  | nil => rfl
  | cons c cs ih =>
    rw [List.map_cons, List.flatten_cons, List.count_append, h c List.mem_cons_self,
      ih fun d hd => h d (List.mem_cons_of_mem c hd), List.countP_cons, Nat.add_comm]

/-- Who has begun runs or has ended. -/
theorem countP_begun (cs : List Connection) :
    cs.countP (·.phase ≠ .unstarted) = cs.countP Connection.isRunning + cs.countP Connection.isEnded := by
  induction cs with
  | nil => rfl
  | cons c cs ih =>
    simp only [List.countP_cons, ih]
    have : (if c.phase ≠ .unstarted then 1 else 0) =
        (if c.isRunning then 1 else 0) + if c.isEnded then 1 else 0 := by
      unfold Connection.isRunning Connection.isEnded
      cases c.phase <;> rfl
    simp only [decide_eq_true_eq]
    omega

theorem countP_running_of_ended {cs : List Connection} (h : ∀ c ∈ cs, c.isEnded = true) :
    cs.countP Connection.isRunning = 0 := by
  apply List.countP_eq_zero.mpr
  intro c hc
  have := h c hc
  unfold Connection.isEnded at this
  unfold Connection.isRunning
  split at this
  · rename_i hp
    simp [hp]
  · contradiction

/-- A charge is one of five. -/
theorem countP_charged (p : Partitioner) (sent : Nat → Bytes) (cs : List Connection) :
    cs.countP (chargeOf p sent · = some .connectionPanicked) +
        cs.countP (chargeOf p sent · = some (.error .framing)) +
        cs.countP (chargeOf p sent · = some (.error .io)) +
        cs.countP (chargeOf p sent · = some (.error .sink)) +
        cs.countP (chargeOf p sent · = some (.error .trailingData)) =
      cs.countP fun c => (chargeOf p sent c).isSome := by
  induction cs with
  | nil => rfl
  | cons c cs ih =>
    have hne := c.phase.charge_ne (leftover p sent c)
    rw [← chargeOf] at hne
    simp only [List.countP_cons, ← ih]
    rcases Option.eq_none_or_eq_some (chargeOf p sent c) with hc | ⟨charge, hc⟩
    · simp [hc]
    · rw [hc] at hne ⊢
      cases charge with
      | messageRouted | connectionOpened | connectionEnded => simp at hne
      | connectionPanicked =>
        simp
        omega
      | error kind =>
        cases kind with
        | accept => simp at hne
        | framing | trailingData | io | sink =>
          simp
          try omega

/-- The counters against the handlers, which stay in the list when they have ended. -/
structure Audited (p : Partitioner) (l : Ledger) : Prop where
  active : l.intake.metrics.active = l.intake.connections.countP Connection.isRunning
  idle : (∀ c ∈ l.intake.connections, c.isEnded = true) → l.intake.metrics.active = 0
  messages : l.intake.metrics.messages = l.accepted.length
  panics : l.intake.metrics.panics =
    l.intake.connections.countP fun c => c.phase matches .ended (.panicked _)
  framing : l.intake.metrics.errors .framing =
    l.intake.connections.countP fun c => c.phase = .ended (.outcome .malformed)
  io : l.intake.metrics.errors .io =
    l.intake.connections.countP fun c => c.phase = .ended (.outcome .readError)
  sink : l.intake.metrics.errors .sink =
    l.intake.connections.countP fun c => c.phase = .ended (.outcome .sinkClosed)
  trailing : l.intake.metrics.errors .trailingData =
    l.intake.connections.countP fun c =>
      c.phase = .ended (.outcome .peerClosed) ∧ 0 < leftover p l.sent c
  accept : l.intake.metrics.errors .accept ≤ 1
  /-- No handler is in two of these counts. -/
  once : l.intake.metrics.panics + l.intake.metrics.errors .framing + l.intake.metrics.errors .io +
      l.intake.metrics.errors .sink + l.intake.metrics.errors .trailingData =
    l.intake.connections.countP fun c => (chargeOf p l.sent c).isSome

/-- Counters of charges. -/
theorem Tallied.charges (h : Tallied p w sent accepted) (metric : Metric)
    (hm : metric ∈ [.connectionPanicked, .error .framing, .error .io, .error .sink,
      .error .trailingData]) :
    w.metrics.count metric = w.connections.countP (chargeOf p sent · = some metric) := by
  have hkind : metric ≠ .messageRouted ∧ metric ≠ .error .accept := by
    constructor
    · rintro rfl
      simp at hm
    · rintro rfl
      simp at hm
  rw [h.dues metric hkind.1 hkind.2]
  apply count_dues
  intro c _
  have := c.count_dues (leftover p sent c) metric
  simp only [decide_eq_true_eq]
  cases metric with
  | messageRouted | connectionOpened | connectionEnded => simp at hm
  | connectionPanicked => exact this
  | error kind => exact this

theorem Tallied.active (h : Tallied p w sent accepted) :
    w.metrics.active = w.connections.countP Connection.isRunning := by
  have hopened : w.metrics.opened = w.connections.countP (·.phase ≠ .unstarted) := by
    refine (h.dues .connectionOpened (by simp) (by simp)).trans (count_dues ?_)
    intro c _
    refine (c.count_dues (leftover p sent c) .connectionOpened).trans ?_
    by_cases hc : c.phase = .unstarted <;> simp [hc]
  have hended : w.metrics.ended = w.connections.countP Connection.isEnded := by
    refine (h.dues .connectionEnded (by simp) (by simp)).trans (count_dues ?_)
    intro c _
    exact c.count_dues (leftover p sent c) .connectionEnded
  rw [Metrics.active, hopened, hended, countP_begun]
  omega

/-- In every state that a run comes to, the counters tell what became of the handlers and of their
messages. -/
theorem counters_account (p : Partitioner) (stream : String) (localAddress : Option String)
    (signals : Signals) (free : Option Nat) (fault : Option Fault) (closed : Bool)
    (deeds : List Deed) :
    ((start localAddress signals free fault closed).run p stream deeds).Audited p := by
  have hkept := (kept_start p stream localAddress signals free fault closed).run deeds
  generalize (start localAddress signals free fault closed).run p stream deeds = l at hkept
  have h := hkept.tallied
  have hp := h.charges .connectionPanicked (by simp)
  have hf := h.charges (.error .framing) (by simp)
  have hi := h.charges (.error .io) (by simp)
  have hs := h.charges (.error .sink) (by simp)
  have ht := h.charges (.error .trailingData) (by simp)
  have hcharge (c : Connection) := c.phase.charge_eq_some_iff (leftover p l.sent c)
  have hcount {metric : Metric} {q : Connection → Bool}
      (hq : ∀ c, chargeOf p l.sent c = some metric ↔ q c = true) :
      l.intake.connections.countP (chargeOf p l.sent · = some metric) =
        l.intake.connections.countP q := by
    apply List.countP_congr
    intro c _
    rw [decide_eq_true_iff]
    exact hq c
  refine ⟨h.active, ?_, h.routed, hp.trans ?_, hf.trans ?_, hi.trans ?_, hs.trans ?_, ht.trans ?_, ?_, ?_⟩
  · intro hall
    rw [h.active, countP_running_of_ended hall]
    rfl
  · apply hcount
    intro c
    rw [chargeOf, (hcharge c).1]
    cases c.phase with
    | ended ending => cases ending <;> simp
    | unstarted | reading | routing => simp
  · apply hcount
    intro c
    rw [chargeOf, (hcharge c).2.1, decide_eq_true_iff]
  · apply hcount
    intro c
    rw [chargeOf, (hcharge c).2.2.1, decide_eq_true_iff]
  · apply hcount
    intro c
    rw [chargeOf, (hcharge c).2.2.2.1, decide_eq_true_iff]
  · apply hcount
    intro c
    rw [chargeOf, (hcharge c).2.2.2.2, decide_eq_true_iff]
  · rcases h.refused with hz | ⟨ho, _⟩
    · rw [hz]
      exact Nat.zero_le _
    · exact Nat.le_of_eq ho
  · rw [← countP_charged, ← hp, ← hf, ← hi, ← hs, ← ht]
    rfl

end Ledger

end FrameIntake
