import FrameIntake.Proofs.Connection.Account
import FrameIntake.Proofs.Intake.Step

/-!
What a handler owes to the counters. Where it stands tells all that was counted of it, its messages apart:
that it began, that it ended, and at most one charge for how it ended (`step_dues`).
-/

namespace FrameIntake

namespace Metrics

/-- The counter of a metric. -/
def count (m : Metrics) : Metric → Nat
  | .messageRouted => m.messages
  | .connectionOpened => m.opened
  | .connectionEnded => m.ended
  | .connectionPanicked => m.panics
  | .error kind => m.errors kind

theorem count_record (m : Metrics) (event metric : Metric) :
    (m.record event).count metric = m.count metric + [event].count metric := by
  cases event with
  | error kind =>
    cases metric with
    | error k =>
      by_cases hk : k = kind
      · simp [record, count, hk]
      · simp [record, count, hk, Ne.symm hk]
    | messageRouted | connectionOpened | connectionEnded | connectionPanicked =>
      simp [record, count]
  | messageRouted | connectionOpened | connectionEnded | connectionPanicked =>
    cases metric <;> simp [record, count]

theorem count_recordAll (m : Metrics) (events : List Metric) (metric : Metric) :
    (m.recordAll events).count metric = m.count metric + events.count metric := by
  induction events generalizing m with
  | nil => rfl
  | cons event events ih =>
    have := ih (m.record event)
    rw [recordAll, List.foldl_cons, ← recordAll, this, count_record, Nat.add_assoc,
      ← List.count_append]
    rfl

end Metrics

/-- What an ending is counted as, beside being one. An end of the peer is an error only if bytes were
left over. -/
def Ending.charge (leftover : Nat) : Ending → Option Metric
  | .panicked _ => some .connectionPanicked
  | .outcome .malformed => some (.error .framing)
  | .outcome .readError => some (.error .io)
  | .outcome .sinkClosed => some (.error .sink)
  | .outcome .peerClosed => if leftover = 0 then none else some (.error .trailingData)
  | .outcome .shutdown | .outcome .fuseBurned => none

/-- All that was counted of a handler, but for its messages. -/
def Phase.dues (leftover : Nat) : Phase → List Metric
  | .unstarted => []
  | .reading | .routing _ _ => [.connectionOpened]
  | .ended ending => .connectionOpened :: (ending.charge leftover).toList ++ [.connectionEnded]

/-- The charge of a handler, once it has ended. -/
def Phase.charge (leftover : Nat) : Phase → Option Metric
  | .ended ending => ending.charge leftover
  | _ => none

theorem Phase.charge_ne (phase : Phase) (leftover : Nat) :
    phase.charge leftover ∉ [some .messageRouted, some .connectionOpened, some .connectionEnded,
      some (.error .accept)] := by
  cases phase with
  | unstarted | reading | routing => simp [charge]
  | ended ending =>
    cases ending with
    | panicked what => simp [charge, Ending.charge]
    | outcome o =>
      cases o with
      | peerClosed => by_cases hz : leftover = 0 <;> simp [charge, Ending.charge, hz]
      | shutdown | fuseBurned | malformed | readError | sinkClosed => simp [charge, Ending.charge]

/-- The charge tells how the handler has ended. -/
theorem Phase.charge_eq_some_iff (phase : Phase) (leftover : Nat) :
    (phase.charge leftover = some .connectionPanicked ↔ ∃ what, phase = .ended (.panicked what)) ∧
    (phase.charge leftover = some (.error .framing) ↔ phase = .ended (.outcome .malformed)) ∧
    (phase.charge leftover = some (.error .io) ↔ phase = .ended (.outcome .readError)) ∧
    (phase.charge leftover = some (.error .sink) ↔ phase = .ended (.outcome .sinkClosed)) ∧
    (phase.charge leftover = some (.error .trailingData) ↔
      phase = .ended (.outcome .peerClosed) ∧ 0 < leftover) := by
  cases phase with
  | unstarted | reading | routing => simp [charge]
  | ended ending =>
    cases ending with
    | panicked what => simp [charge, Ending.charge]
    | outcome o =>
      cases o with
      | peerClosed =>
        rcases Nat.eq_zero_or_pos leftover with hz | hz
        · simp [charge, Ending.charge, hz]
        · simp [charge, Ending.charge, hz, Nat.ne_of_gt hz]
      | shutdown | fuseBurned | malformed | readError | sinkClosed => simp [charge, Ending.charge]

namespace Connection

variable {c : Connection} {signals : Signals} {sink : Sink} {left : Nat} {g : Handled}

/-- The number of each metric among the dues. -/
theorem count_dues (c : Connection) (leftover : Nat) (metric : Metric) :
    (c.phase.dues leftover).count metric =
      match metric with
      | .connectionOpened => if c.phase = .unstarted then 0 else 1
      | .connectionEnded => if c.isEnded then 1 else 0
      | metric => if c.phase.charge leftover = some metric then 1 else 0 := by
  unfold isEnded
  cases c.phase with
  | unstarted | reading | routing => cases metric <;> rfl
  | ended ending =>
    have hne := Phase.charge_ne (.ended ending) leftover
    simp only [Phase.dues, Phase.charge] at hne ⊢
    rcases Option.eq_none_or_eq_some (ending.charge leftover) with hc | ⟨charge, hc⟩
    · cases metric <;> simp [hc]
    · rw [hc] at hne
      cases metric <;> cases charge <;> simp_all [List.count_cons]

theorem dues_of_running (running : c.isRunning = true) (leftover : Nat) :
    c.phase.dues leftover = [.connectionOpened] := by
  rcases isRunning_cases running with hp | ⟨m, inLine, hp⟩
  · rw [hp, Phase.dues]
  · rw [hp, Phase.dues]

/-- What the supervisor counts of a step that a running handler takes. -/
theorem supervised_metrics (running : c.isRunning = true) (g : Handled) :
    (g.supervised c.phase).metrics =
      g.metrics ++
        match g.connection.phase with
        | .ended (.outcome _) => [.connectionEnded]
        | .ended (.panicked _) => [.connectionPanicked, .connectionEnded]
        | _ => [] := by
  have hne : c.phase ≠ .unstarted := by
    intro hp
    simp [isRunning, hp] at running
  unfold Handled.supervised
  dsimp only
  rw [if_neg hne]
  cases g.connection.phase with
  | ended ending => cases ending <;> rfl
  | unstarted | reading | routing m inLine => simp

/-- A step of a running handler that sends nothing is counted as what its end costs. -/
theorem dues_of_step (running : c.isRunning = true) {leftover : Nat} (before : Nat)
    (silent : .messageRouted ∉ g.metrics)
    (charged : match g.connection.phase with
      | .ended (.outcome o) => g.metrics = ((Ending.outcome o).charge leftover).toList
      | .unstarted => False
      | _ => g.metrics = []) :
    c.phase.dues before ++ (g.supervised c.phase).metrics.filter (· ≠ .messageRouted) =
      g.connection.phase.dues leftover := by
  have hsilent : g.metrics.filter (· ≠ .messageRouted) = g.metrics := by
    apply List.filter_eq_self.mpr
    intro metric hm
    have hne : metric ≠ .messageRouted := fun he => silent (he ▸ hm)
    simpa using hne
  rw [dues_of_running running, supervised_metrics running, List.filter_append, hsilent]
  cases hp : g.connection.phase with
  | unstarted =>
    rw [hp] at charged
    exact charged.elim
  | reading | routing m inLine =>
    rw [hp] at charged
    rw [charged]
    rfl
  | ended ending =>
    rw [hp] at charged
    cases ending with
    | panicked what =>
      rw [charged]
      rfl
    | outcome o =>
      rw [charged]
      rfl

/-- What a handler has been counted for is what it is due for where it stands. -/
theorem step_dues (h : c.step signals sink left = some g) (leftover : Nat)
    (closed : g.connection.phase = .ended (.outcome .peerClosed) →
      (0 < leftover ↔ .error .trailingData ∈ g.metrics)) (before : Nat) :
    c.phase.dues before ++ (g.supervised c.phase).metrics.filter (· ≠ .messageRouted) =
      g.connection.phase.dues leftover := by
  cases step_steps h with
  | opened unstarted => simp [Handled.supervised, unstarted, Phase.dues]
  | interrupted running stop =>
    apply dues_of_step running before (by simp [interrupt])
    rcases Signals.eq_of_stop? stop with ⟨_, rfl⟩ | ⟨_, _, rfl⟩ <;> rfl
  | gaveUp running lost new =>
    apply dues_of_step running before (by simp)
    rcases isRunning_cases running with hp | ⟨m, inLine, hp⟩ <;> simp [hp]
  | read reading hr =>
    have running := isRunning_of_reading reading
    cases read_reads hr with
    | message poll => exact dues_of_step running before (by simp) rfl
    | ended poll =>
      have hzero : leftover = 0 := by simpa [finish] using closed rfl
      apply dues_of_step running before (by simp)
      simp [finish, Ending.charge, hzero]
    | failed poll =>
      rename_i e r rest
      cases e with
      | framing e => exact dues_of_step running before (by simp [fail]) rfl
      | io e => exact dues_of_step running before (by simp [fail]) rfl
      | trailing bytes =>
        have hpos : leftover ≠ 0 := by
          have : 0 < leftover := (closed rfl).mpr (by simp [fail])
          omega
        apply dues_of_step running before (by simp [fail])
        simp [fail, finish, Ending.charge, hpos]
    | pending poll =>
      apply dues_of_step running before (by simp)
      simp [reading]
  | accepted routing offer =>
    rw [dues_of_running (isRunning_of_routing routing), supervised_metrics (isRunning_of_routing routing)]
    rfl
  | linedUp routing offer =>
    exact dues_of_step (isRunning_of_routing routing) before (by simp) rfl
  | refused routing offer =>
    exact dues_of_step (isRunning_of_routing routing) before (by simp) rfl
  | panicked routing offer =>
    exact dues_of_step (isRunning_of_routing routing) before (by simp) rfl

/-- No handler counts an error of the acceptor. -/
theorem step_accept (h : c.step signals sink left = some g) :
    (g.supervised c.phase).metrics.count (.error .accept) = 0 := by
  have hnone (d : Connection) (leftover : Nat) : (d.phase.dues leftover).count (.error .accept) = 0 := by
    have hne := d.phase.charge_ne leftover
    simp only [List.mem_cons, not_or] at hne
    exact (d.count_dues leftover (.error .accept)).trans (if_neg hne.2.2.2.1)
  have hdues := step_dues h (if .error .trailingData ∈ g.metrics then 1 else 0) ?_ 0
  · have := congrArg (List.count (.error .accept)) hdues
    rwa [List.count_append, List.count_filter (by simp), hnone, hnone, Nat.zero_add] at this
  · intro _
    split <;> simp_all

/-- Each message that the sink accepts is counted, and no other. -/
theorem step_routed (h : c.step signals sink left = some g) :
    (g.supervised c.phase).metrics.count .messageRouted = (sink.gained g.sink).length := by
  have hsupervised : (g.supervised c.phase).metrics.count .messageRouted =
      g.metrics.count .messageRouted := by
    unfold Handled.supervised
    dsimp only
    split <;> split <;> simp [List.count_append]
  rw [hsupervised]
  have hnone {new : Sink} (hs : new.sent = sink.sent) : (sink.gained new).length = 0 := by
    simp [Sink.gained, hs]
  cases step_steps h with
  | opened unstarted => exact (hnone rfl).symm
  | interrupted running stop => exact (hnone rfl).symm
  | gaveUp running lost new => exact (hnone rfl).symm
  | read reading hr =>
    obtain ⟨hs, -⟩ := read_frame hr
    rw [hnone (congrArg Sink.sent hs)]
    cases read_reads hr with
    | message poll | ended poll | pending poll => rfl
    | failed poll =>
      rename_i e r rest
      cases e <;> simp [fail]
  | accepted routing offer =>
    rename_i m inLine sink'
    obtain ⟨_, hs, _⟩ := Sink.offer_accepted offer
    rw [Sink.gained_of_append (show sink'.sent = [_] ++ sink.sent from hs)]
    rfl
  | linedUp routing offer => exact (hnone (Sink.offer_waits offer).2.1).symm
  | refused routing offer =>
    obtain rfl := Sink.offer_refused offer
    exact (hnone rfl).symm
  | panicked routing offer =>
    obtain rfl := Sink.offer_panicked offer
    exact (hnone rfl).symm

/-- Who ends with the peer reports bytes and counts an error, or does neither. -/
theorem step_peerClosed (h : c.step signals sink left = some g)
    (closed : g.connection.phase = .ended (.outcome .peerClosed)) :
    c.isRunning = true ∧
      (g.notices = [] ∧ .error .trailingData ∉ g.metrics ∨
        ∃ n, g.notices = [.frameIncomplete c.peer n] ∧ .error .trailingData ∈ g.metrics) := by
  cases step_steps h with
  | opened unstarted => cases closed
  | interrupted running stop =>
    rcases Signals.eq_of_stop? stop with ⟨_, rfl⟩ | ⟨_, _, rfl⟩ <;> cases closed
  | gaveUp running lost new =>
    have hp : c.phase = .ended (.outcome .peerClosed) := closed
    simp [isRunning, hp] at running
  | read reading hr =>
    refine ⟨isRunning_of_reading reading, ?_⟩
    cases read_reads hr with
    | message poll => cases closed
    | ended poll => exact .inl ⟨rfl, by simp⟩
    | failed poll =>
      rename_i e r rest
      cases e with
      | framing e => cases closed
      | io e => cases closed
      | trailing bytes => exact .inr ⟨bytes, rfl, by simp [fail]⟩
    | pending poll =>
      have hp : c.phase = .ended (.outcome .peerClosed) := closed
      cases reading.symm.trans hp
  | accepted routing offer => cases closed
  | linedUp routing offer => cases closed
  | refused routing offer => cases closed
  | panicked routing offer => cases closed

end Connection

namespace Chronicle

variable {p : Partitioner} {stream : String} {ch : Chronicle} {bytes : Bytes} {taken : List Frame}
variable {signals : Signals} {sink : Sink} {left : Nat} {g : Handled}

/-- A handler that ends with its peer counts an error if bytes are left over, of all that it has read. -/
theorem Kept.trailing (h : ch.Kept p stream bytes taken)
    (hs : ch.connection.step signals sink left = some g)
    (closed : g.connection.phase = .ended (.outcome .peerClosed)) :
    0 < (p.cut (ch.handled sink g).read).rest.length ↔ .error .trailingData ∈ g.metrics := by
  obtain ⟨bytes', taken', hk⟩ := h.step hs
  obtain ⟨_, dropped, hcut, hlog⟩ := hk.stands.closed closed
  obtain ⟨running, hreport⟩ := Connection.step_peerClosed hs closed
  obtain ⟨_, hl⟩ := h.stands.of_running running
  have hnotices : g.notices = noticeOf dropped.length (.frameIncomplete g.connection.peer) := by
    rw [Chronicle.handled, hl] at hlog
    exact (List.cons.inj hlog).2
  rw [hk.read_eq, hcut]
  rcases hreport with ⟨hn, hm⟩ | ⟨n, hn, hm⟩
  · have hzero : dropped.length = 0 := by
      unfold noticeOf at hnotices
      split at hnotices
      · assumption
      · cases hn.symm.trans hnotices
    simp [hzero, hm]
  · have hpos : dropped.length ≠ 0 := by
      intro hzero
      rw [hn, noticeOf, if_pos hzero] at hnotices
      cases hnotices
    simp only [hm, iff_true]
    exact Nat.pos_of_ne_zero hpos

end Chronicle

end FrameIntake
