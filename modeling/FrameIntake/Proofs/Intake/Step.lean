import FrameIntake.Intake

/-!
What one step of a task can do to an intake: of the acceptor (`stepAcceptor_steps`) and of a handler
(`stepConnection_split`).
-/

namespace FrameIntake.Intake

variable {w v : Intake} {signals : Signals} {sink : Sink} {left : Nat}

/-- Everything that a step of the acceptor can do. -/
inductive AcceptorSteps (w : Intake) : Intake → Prop
  | started (unstarted : w.acceptor = .unstarted) :
      AcceptorSteps w { w.report [.acceptorStarted w.localAddress] with acceptor := .deciding }
  | stopped (running : w.acceptor ≠ .stopped)
      (closed : w.listenerClosed = true ∨ w.acceptor = .deciding ∧ w.signals.cancelled = true)
      (begun : w.acceptor ≠ .unstarted)
      (clear : w.acceptor = .accepting → w.signals.burned = false) :
      AcceptorSteps w w.stopAcceptor
  | held (deciding : w.acceptor = .deciding) (burned : w.signals.burned = true)
      (active : w.signals.cancelled = false) (listening : w.listenerClosed = false) :
      AcceptorSteps w { w with acceptor := .holding }
  | began (deciding : w.acceptor = .deciding) (clear : w.signals.burned = false)
      (active : w.signals.cancelled = false) (listening : w.listenerClosed = false) :
      AcceptorSteps w { w with acceptor := .accepting, accepts := w.accepts + 1 }
  | cleared (holding : w.acceptor = .holding) (clear : w.signals.burned = false)
      (listening : w.listenerClosed = false) :
      AcceptorSteps w { w with acceptor := .deciding, spent := w.spent + 1 }
  | abandoned (accepting : w.acceptor = .accepting) (burned : w.signals.burned = true) :
      AcceptorSteps w { w with acceptor := .deciding }
  | accepted {c rest} (accepting : w.acceptor = .accepting)
      (listening : w.listenerClosed = false) (next : w.backlog = .connection c :: rest)
      (clear : w.signals.burned = false) :
      AcceptorSteps w ({ w with backlog := rest }.accept c)
  | failed {e rest} (accepting : w.acceptor = .accepting) (listening : w.listenerClosed = false)
      (next : w.backlog = .failure e :: rest) (clear : w.signals.burned = false) :
      AcceptorSteps w ({ w with backlog := rest }.failAccept e)

theorem stepAcceptor_steps (h : w.stepAcceptor = some v) : w.AcceptorSteps v := by
  unfold stepAcceptor at h
  cases ha : w.acceptor with
  | unstarted =>
    rw [ha] at h
    obtain rfl := Option.some.inj h
    exact .started ha
  | deciding =>
    rw [ha] at h
    dsimp only at h
    split at h
    · rename_i hover
      obtain rfl := Option.some.inj h
      refine .stopped (by simp [ha]) ?_ (by simp [ha]) (by simp [ha])
      rcases Bool.or_eq_true_iff.mp hover with hc | hl
      · exact .inr ⟨ha, hc⟩
      · exact .inl hl
    · rename_i hover
      obtain ⟨hc, hl⟩ := Bool.or_eq_false_iff.mp (Bool.not_eq_true _ ▸ hover)
      split at h
      · rename_i hb
        obtain rfl := Option.some.inj h
        exact .held ha hb hc hl
      · rename_i hb
        obtain rfl := Option.some.inj h
        exact .began ha (Bool.not_eq_true _ ▸ hb) hc hl
  | holding =>
    rw [ha] at h
    dsimp only at h
    split at h
    · rename_i hl
      obtain rfl := Option.some.inj h
      exact .stopped (by simp [ha]) (.inl hl) (by simp [ha]) (by simp [ha])
    · rename_i hl
      split at h
      · contradiction
      · rename_i hb
        obtain rfl := Option.some.inj h
        exact .cleared ha (Bool.not_eq_true _ ▸ hb) (Bool.not_eq_true _ ▸ hl)
  | accepting =>
    rw [ha] at h
    dsimp only at h
    split at h
    · rename_i hb
      obtain rfl := Option.some.inj h
      exact .abandoned ha hb
    · rename_i hb
      have hclear : w.signals.burned = false := Bool.not_eq_true _ ▸ hb
      split at h
      · rename_i hl
        obtain rfl := Option.some.inj h
        exact .stopped (by simp [ha]) (.inl hl) (by simp [ha]) fun _ => hclear
      · rename_i hl
        have hopen : w.listenerClosed = false := Bool.not_eq_true _ ▸ hl
        cases hb : w.backlog with
        | nil =>
          rw [hb] at h
          cases h
        | cons arrival rest =>
          rw [hb] at h
          cases arrival with
          | connection c =>
            dsimp only at h
            split at h
            · obtain rfl := Option.some.inj h
              exact .accepted ha hopen hb hclear
            · contradiction
          | failure e =>
            obtain rfl := Option.some.inj h
            exact .failed ha hopen hb hclear
  | stopped =>
    rw [ha] at h
    cases h

/-- Nothing keeps the acceptor from stopping once the listener is closed, a burned fuse neither. -/
theorem stepAcceptor_of_closed (closed : w.listenerClosed = true) (h : w.acceptor ≠ .stopped) :
    w.stepAcceptor.isSome = true := by
  unfold stepAcceptor
  cases ha : w.acceptor with
  | unstarted => rfl
  | deciding => simp [closed]
  | holding => simp [closed]
  | accepting => cases w.signals.burned <;> simp [closed]
  | stopped => exact absurd ha h

theorem failAccept_frame (w : Intake) (e : IoError) :
    ∃ metrics notices, w.failAccept e = { w with acceptor := .stopped, metrics, notices } := by
  unfold failAccept
  split <;> exact ⟨_, _, rfl⟩

/-- The acceptor stops alone. -/
theorem stepAcceptor_alone (h : w.stepAcceptor = some v) (stopped : v.acceptor = .stopped) :
    v.connections = w.connections ∧ v.signals = w.signals := by
  cases stepAcceptor_steps h with
  | started | held | began | cleared | abandoned | accepted => cases stopped
  | stopped => exact ⟨rfl, rfl⟩
  | failed accepting listening next clear =>
    rename_i e rest
    obtain ⟨metrics, notices, he⟩ := failAccept_frame { w with backlog := rest } e
    rw [he]
    exact ⟨rfl, rfl⟩

theorem supervised_frame (g : Handled) (before : Phase) :
    (g.supervised before).connection = g.connection ∧ (g.supervised before).sink = g.sink := by
  unfold Handled.supervised
  dsimp only
  split <;> exact ⟨rfl, rfl⟩

theorem handled_sink (w : Intake) (g : Handled) (before : Phase) (connections : List Connection) :
    (w.handled (g.supervised before) connections).sink = g.sink :=
  (supervised_frame g before).2

/-- Among connections, a step is that of the first one with the number. -/
theorem stepAmong_split {id : Nat} {cs cs' : List Connection} {h : Handled}
    (hs : stepAmong id signals sink left cs = some (h, cs')) :
    ∃ front c back g, cs = front ++ c :: back ∧ c.id = id ∧ c.step signals sink left = some g ∧
      h = g.supervised c.phase ∧ cs' = front ++ g.connection :: back := by
  induction cs generalizing cs' with
  | nil => contradiction
  | cons c cs ih =>
    rw [stepAmong] at hs
    split at hs
    · rename_i hid
      obtain ⟨g, hg, he⟩ := Option.map_eq_some_iff.mp hs
      obtain ⟨rfl, rfl⟩ := Prod.mk.inj he
      exact ⟨[], c, cs, g, rfl, hid, hg, rfl, rfl⟩
    · obtain ⟨⟨g, ds⟩, hg, he⟩ := Option.map_eq_some_iff.mp hs
      obtain ⟨rfl, rfl⟩ := Prod.mk.inj he
      obtain ⟨front, d, back, g, rfl, hid, hstep, hh, rfl⟩ := ih hg
      exact ⟨c :: front, d, back, g, rfl, hid, hstep, hh, rfl⟩

/-- A step of a handler changes its own connection and the sink. -/
theorem stepConnection_split {id : Nat} (h : w.stepConnection id = some v) :
    ∃ front c back g, w.connections = front ++ c :: back ∧ c.id = id ∧
      c.step w.signals w.sink w.left = some g ∧
      v = w.handled (g.supervised c.phase) (front ++ g.connection :: back) := by
  obtain ⟨⟨h, cs⟩, hs, rfl⟩ := Option.map_eq_some_iff.mp h
  obtain ⟨front, c, back, g, hcs, hid, hstep, rfl, rfl⟩ := stepAmong_split hs
  exact ⟨front, c, back, g, hcs, hid, hstep, rfl⟩

end FrameIntake.Intake
