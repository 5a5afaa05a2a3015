import FrameIntake.Proofs.Intake.Drained
import Mathlib.Logic.Relation

/-!
The gate, which is all that the acceptor goes by. Its next step is known from the gate alone, and nothing
else that a task does changes the gate (`act_gate`). So gates that have seen the same come are on one way
(`Gate.Abreast`): which turns the tasks have had tells how far each of them has come on it.
-/

namespace FrameIntake

namespace Intake.Deed

/-- Whether a deed counts for a task. What other peers send does not, nor when the receiver takes its
messages, nor which task has a turn. -/
def reaches (task : Task) : Deed → Bool
  | .occur (.connect c) => task = .acceptor || task = .connection c.id
  | .occur (.acceptError _) | .occur .closeListener => task = .acceptor
  | .occur (.arrive id _) => task = .connection id
  | .occur .closeSink => task ≠ .acceptor
  | .occur (.turnFuse _) | .occur .letGoOfFuse | .occur .cancel => true
  | .occur (.receive _) | .move _ | .drain | .hear | .arrange .. => false

/-- Whether a deed tells tasks to stop, or to go on. -/
def isSignal : Deed → Bool
  | .occur (.turnFuse _) | .occur .cancel | .occur .closeListener | .occur .closeSink => true
  | _ => false

theorem outer_of_reaches {task : Task} {deed : Deed} (h : deed.reaches task = true) :
    deed.isInner = false := by
  cases deed with
  | occur event => rfl
  | move | drain | hear | arrange => cases h

end Intake.Deed

structure Gate where
  acceptor : Acceptor
  signals : Signals
  closed : Bool
  /-- What waits to be accepted. -/
  waiting : List Ticket
  handlers : List Nat

namespace Gate

/-- What the acceptor does next, given the effort. -/
def step (g : Gate) : Option Gate :=
  match g.acceptor with
  | .unstarted => some { g with acceptor := .deciding }
  | .deciding =>
    if g.signals.cancelled || g.closed then some { g with acceptor := .stopped }
    else if g.signals.burned then some { g with acceptor := .holding }
    else some { g with acceptor := .accepting }
  | .holding =>
    if g.closed then some { g with acceptor := .stopped }
    else if g.signals.burned then none
    else some { g with acceptor := .deciding }
  | .accepting =>
    if g.signals.burned then some { g with acceptor := .deciding }
    else if g.closed then some { g with acceptor := .stopped }
    else
      match g.waiting with
      | [] => none
      | .connection id :: rest =>
        some { g with acceptor := .deciding, waiting := rest, handlers := g.handlers ++ [id] }
      | .failure _ :: rest => some { g with acceptor := .stopped, waiting := rest }
  | .stopped => none

/-- States that the acceptor takes one gate to the other. -/
def Leads : Gate → Gate → Prop := Relation.ReflTransGen fun g g' => g.step = some g'

/-- The numbers that were given. -/
def ids (g : Gate) : List Nat := g.handlers ++ g.waiting.filterMap Ticket.id?

def come (g : Gate) (ticket : Ticket) : Gate := { g with waiting := g.waiting ++ [ticket] }

def signal (g : Gate) (signals : Signals) : Gate := { g with signals }

variable {g a b c : Gate}

/-- The acceptor leaves what waits alone, or takes what is first. -/
theorem step_cases (h : g.step = some a) :
    (∃ acceptor, a = { g with acceptor }) ∨
    (∃ id rest, g.waiting = .connection id :: rest ∧
      a = { g with acceptor := .deciding, waiting := rest, handlers := g.handlers ++ [id] }) ∨
    ∃ e rest, g.waiting = .failure e :: rest ∧ a = { g with acceptor := .stopped, waiting := rest } := by
  unfold step at h
  cases ha : g.acceptor with
  | accepting =>
    rw [ha] at h
    dsimp only at h
    split at h
    · cases h
      exact .inl ⟨_, rfl⟩
    · split at h
      · cases h
        exact .inl ⟨_, rfl⟩
      · cases hw : g.waiting with
        | nil =>
          rw [hw] at h
          cases h
        | cons ticket rest =>
          rw [hw] at h
          cases ticket <;> cases h
          · exact .inr (.inl ⟨_, rest, rfl, rfl⟩)
          · exact .inr (.inr ⟨_, rest, rfl, rfl⟩)
  | unstarted | deciding | holding | stopped =>
    rw [ha] at h
    dsimp only at h
    repeat' split at h
    all_goals
      cases h
      try exact .inl ⟨_, rfl⟩

theorem step_frame (h : g.step = some a) :
    a.signals = g.signals ∧ a.ids = g.ids ∧ g.handlers <+: a.handlers := by
  rcases step_cases h with ⟨acceptor, rfl⟩ | ⟨id, rest, hw, rfl⟩ | ⟨e, rest, hw, rfl⟩
  · exact ⟨rfl, rfl, List.prefix_refl _⟩
  · refine ⟨rfl, ?_, List.prefix_append _ _⟩
    simp [ids, hw, Ticket.id?]
  · refine ⟨rfl, ?_, List.prefix_refl _⟩
    rw [ids, ids, hw]
    rfl

/-- What comes later waits behind. -/
theorem step_come (h : g.step = some a) (ticket : Ticket) :
    (g.come ticket).step = some (a.come ticket) := by
  unfold step at h
  repeat' split at h
  all_goals cases h
  all_goals simp_all [come, step]

/-- The acceptor does not look who can turn the fuse. -/
theorem step_letGo (h : g.step = some a) : (g.signal g.signals.letGo).step = some (a.signal a.signals.letGo) := by
  unfold step at h
  repeat' split at h
  all_goals cases h
  all_goals simp_all [signal, step, Signals.letGo, Signals.burned]

/-- The acceptor is never again where it was with as many handlers. -/
theorem step_ascends (h : g.step = some a) :
    5 * g.handlers.length + a.acceptor.rank g.signals.burned <
      5 * a.handlers.length + g.acceptor.rank g.signals.burned := by
  unfold step at h
  repeat' split at h
  all_goals cases h
  all_goals simp_all [Acceptor.rank]
  all_goals try (split <;> omega)
  all_goals omega

theorem Leads.frame (h : g.Leads a) :
    a.signals = g.signals ∧ a.ids = g.ids ∧ g.handlers <+: a.handlers := by
  induction h with
  | refl => exact ⟨rfl, rfl, List.prefix_refl _⟩
  | tail _ hs ih =>
    obtain ⟨hsignals, hids, hhandlers⟩ := step_frame hs
    exact ⟨hsignals.trans ih.1, hids.trans ih.2.1, ih.2.2.trans hhandlers⟩

theorem Leads.eq_of_rest (h : g.Leads a) (rest : g.step = none) : a = g := by
  rcases Relation.ReflTransGen.cases_head h with rfl | ⟨b, hs, _⟩
  · rfl
  · cases rest.symm.trans hs

theorem Leads.come (h : g.Leads a) (ticket : Ticket) : (g.come ticket).Leads (a.come ticket) := by
  induction h with
  | refl => exact .refl
  | tail _ hs ih => exact ih.tail (step_come hs ticket)

theorem Leads.letGo (h : g.Leads a) :
    (g.signal g.signals.letGo).Leads (a.signal a.signals.letGo) := by
  induction h with
  | refl => exact .refl
  | tail _ hs ih => exact ih.tail (step_letGo hs)

theorem Leads.ascends (h : g.Leads a) :
    a = g ∨ 5 * g.handlers.length + a.acceptor.rank g.signals.burned <
      5 * a.handlers.length + g.acceptor.rank g.signals.burned := by
  induction h with
  | refl => exact .inl rfl
  | tail hl hs ih =>
    have hstep := step_ascends hs
    rw [(Leads.frame hl).1] at hstep
    rcases ih with rfl | ih
    · exact .inr hstep
    · exact .inr (by omega)

/-- Of two gates that it leads to, one leads to the other. -/
theorem Leads.total (ha : g.Leads a) (hb : g.Leads b) : a.Leads b ∨ b.Leads a := by
  apply Relation.ReflTransGen.total_of_right_unique ?_ ha hb
  intro g a b ha hb
  exact Option.some.inj (ha.symm.trans hb)

/-- States that two gates are on one way: one leads to the other. -/
def Abreast (a b : Gate) : Prop := a.Leads b ∨ b.Leads a

theorem Abreast.refl (g : Gate) : g.Abreast g := .inl .refl

theorem Abreast.symm (h : a.Abreast b) : b.Abreast a := Or.symm h

/-- The acceptor does not leave the way. -/
theorem Abreast.step (h : a.Abreast b) (ha : a.Leads c) : c.Abreast b := by
  rcases h with h | h
  · exact ha.total h
  · exact .inr (h.trans ha)

theorem Abreast.frame (h : a.Abreast b) : a.signals = b.signals ∧ a.ids = b.ids := by
  rcases h with h | h
  · exact ⟨h.frame.1.symm, h.frame.2.1.symm⟩
  · exact ⟨h.frame.1, h.frame.2.1⟩

theorem Abreast.come (h : a.Abreast b) (ticket : Ticket) : (a.come ticket).Abreast (b.come ticket) :=
  h.imp (·.come ticket) (·.come ticket)

theorem Abreast.letGo (h : a.Abreast b) :
    (a.signal a.signals.letGo).Abreast (b.signal b.signals.letGo) :=
  h.imp Leads.letGo Leads.letGo

/-- On one way, a gate is known by where the acceptor is and by how many it has let in. -/
theorem Abreast.eq (h : a.Abreast b) (acceptor : a.acceptor = b.acceptor)
    (handlers : a.handlers.length = b.handlers.length) : a = b := by
  rcases h with h | h
  · rcases h.ascends with he | hlt
    · exact he.symm
    · rw [acceptor, handlers] at hlt
      exact absurd hlt (Nat.lt_irrefl _)
  · rcases h.ascends with he | hlt
    · exact he
    · rw [acceptor, handlers] at hlt
      exact absurd hlt (Nat.lt_irrefl _)

theorem Abreast.eq_of_rest (h : a.Abreast b) (resta : a.step = none) (restb : b.step = none) : a = b := by
  rcases h with h | h
  · exact (h.eq_of_rest resta).symm
  · exact h.eq_of_rest restb

def admits (p : Partitioner) (stream : String) (g : Gate) (c : Connection) : Bool :=
  c.id ∉ g.ids && c = { Connection.start c.id c.peer p stream with source := c.source }

/-- What happens from outside makes this of a gate. -/
def after (p : Partitioner) (stream : String) (g : Gate) : Intake.Deed → Gate
  | .occur (.connect c) => if g.admits p stream c then g.come (.connection c.id) else g
  | .occur (.acceptError e) => g.come (.failure e)
  | .occur (.turnFuse burned) => g.signal (g.signals.turn burned).1
  | .occur .letGoOfFuse => g.signal g.signals.letGo
  | .occur .cancel => g.signal { g.signals with cancelled := true }
  | .occur .closeListener => { g with closed := true }
  | _ => g

theorem after_of_apart {p : Partitioner} {stream : String} {deed : Intake.Deed}
    (apart : deed.reaches .acceptor = false) (g : Gate) : g.after p stream deed = g := by
  unfold Intake.Deed.reaches at apart
  split at apart <;> first | rfl | simp at apart

/-- What comes finds both gates anywhere on their way, and a signal finds both at one place. -/
theorem Abreast.after {p : Partitioner} {stream : String} {deed : Intake.Deed} (h : a.Abreast b)
    (level : deed.isSignal = true →
      a.acceptor = b.acceptor ∧ a.handlers.length = b.handlers.length) :
    (a.after p stream deed).Abreast (b.after p stream deed) := by
  cases hs : deed.isSignal with
  | true =>
    -- A gate that lags behind would miss the signal, so both have to be one.
    obtain ⟨ha, hh⟩ := level hs
    rw [h.eq ha hh]
    exact .refl _
  | false =>
    cases deed with
    | move | drain | hear | arrange => exact h
    | occur event =>
      cases event with
      | turnFuse | cancel | closeListener | closeSink => cases hs
      | arrive | receive => exact h
      | acceptError e => exact h.come _
      | letGoOfFuse => exact h.letGo
      | connect c =>
        have hadmits : a.admits p stream c = b.admits p stream c := by
          rw [admits, admits, h.frame.2]
        rw [Gate.after, Gate.after, hadmits]
        split
        · exact h.come _
        · exact h

end Gate

namespace Intake

variable {w v : Intake} {deed : Deed}

def gate (w : Intake) : Gate :=
  { acceptor := w.acceptor, signals := w.signals, closed := w.listenerClosed
    waiting := w.waiting, handlers := w.handlers }

theorem stepAcceptor_gate (h : w.stepAcceptor = some v) : w.gate.step = some v.gate := by
  cases stepAcceptor_steps h with
  | started unstarted => simp [gate, Gate.step, unstarted, waiting, handlers, report]
  | stopped running closed begun clear =>
    have hgate : w.stopAcceptor.gate = { w.gate with acceptor := .stopped } := rfl
    rw [hgate, Gate.step]
    cases ha : w.acceptor with
    | unstarted => exact absurd ha begun
    | stopped => exact absurd ha running
    | deciding =>
      have : w.signals.cancelled = true ∨ w.listenerClosed = true := by simpa [ha, or_comm] using closed
      simp [gate, ha, this]
    | holding =>
      have : w.listenerClosed = true := by simpa [ha] using closed
      simp [gate, ha, this]
    | accepting =>
      have : w.listenerClosed = true := by simpa [ha] using closed
      simp [gate, ha, this, clear ha]
  | held deciding burned active listening =>
    simp [gate, Gate.step, deciding, burned, active, listening, waiting, handlers]
  | began deciding clear active listening =>
    simp [gate, Gate.step, deciding, clear, active, listening, waiting, handlers]
  | cleared holding clear listening =>
    simp [gate, Gate.step, holding, clear, listening, waiting, handlers]
  | abandoned accepting burned =>
    simp [gate, Gate.step, accepting, burned, waiting, handlers]
  | accepted accepting listening next clear =>
    simp [gate, Gate.step, accepting, listening, next, clear, waiting, handlers, accept, report,
      Arrival.ticket]
  | failed accepting listening next clear =>
    rename_i e rest
    obtain ⟨metrics, notices, he⟩ := failAccept_frame { w with backlog := rest } e
    rw [he]
    simp [gate, Gate.step, accepting, listening, next, clear, waiting, handlers, Arrival.ticket]

/-- A task does nothing to the gate, or what the acceptor does next. -/
theorem act_gate (w : Intake) (inner : deed.isInner = true) : w.gate.Leads (w.act deed).gate := by
  by_cases ha : deed = .move .acceptor
  · subst ha
    rw [act]
    cases hm : w.move .acceptor with
    | none => exact .refl
    | some v => exact .single (stepAcceptor_gate hm)
  · have hapart := w.act_apart ha
    have hacceptor := w.act_acceptor ha
    have hsignals : (w.act deed).signals = w.signals ∧ (w.act deed).listenerClosed = w.listenerClosed := by
      cases deed with
      | occur event => contradiction
      | drain => contradiction
      | hear | arrange awake spent turns paused => exact ⟨rfl, rfl⟩
      | move task =>
        rw [act]
        cases hm : w.move task with
        | none => exact ⟨rfl, rfl⟩
        | some v =>
          obtain ⟨hs, hl, _⟩ := move_frame hm
          exact ⟨hs, hl⟩
    have hcomes : deed.comes = [] := by
      cases deed with
      | occur event => contradiction
      | move | drain | hear | arrange => rfl
    have hwaiting := hapart.waiting
    rw [hcomes, List.append_nil] at hwaiting
    have hsame : (w.act deed).gate = w.gate := by
      rw [gate, hacceptor, hsignals.1, hsignals.2, hwaiting, hapart.handlers, gate]
    rw [hsame]
    exact .refl

theorem gate_at_rest (rest : w.refreshed.move .acceptor = none) : w.gate.step = none := by
  rcases acceptor_at_rest rest with ha | ⟨hl, ⟨ha, hb⟩ | ⟨ha, hb, hq⟩⟩
  · simp [Intake.gate, Gate.step, ha]
  · simp [Intake.gate, Gate.step, ha, hl, hb]
  · simp [Intake.gate, Gate.step, ha, hl, hb, waiting, hq]

/-- The numbers that were given are known at the gate. -/
theorem ids_eq (w : Intake) : w.ids = w.gate.ids := by
  have hticket (arrival : Arrival) : arrival.connection?.map Connection.id = arrival.ticket.id? := by
    cases arrival <;> rfl
  have hwaiting : (w.backlog.filterMap Arrival.connection?).map Connection.id =
      (w.backlog.map Arrival.ticket).filterMap Ticket.id? := by
    rw [List.map_filterMap, List.filterMap_map]
    exact congrArg (fun f => w.backlog.filterMap f) (funext hticket)
  rw [ids, peers, List.map_append, hwaiting]
  rfl

theorem admits_connect {p : Partitioner} {stream : String} (w : Intake) (c : Connection) :
    w.admits p stream (.occur (.connect c)) = w.gate.admits p stream c := by
  rw [admits, ids_eq]
  rfl

theorem gate_of_outer (outer : deed.isInner = false) (w : Intake) :
    (w.act deed).gate =
      { w.gate with
        signals := (w.act deed).signals
        closed := (w.act deed).listenerClosed
        waiting := w.gate.waiting ++ deed.comes } := by
  have hne : deed ≠ .move .acceptor := by
    rintro rfl
    cases outer
  have hapart := w.act_apart hne
  rw [gate, hapart.waiting, hapart.handlers, w.act_acceptor hne]
  rfl

end Intake

/-- What happens from outside acts on the gate alone. -/
theorem Ledger.gate_act {p : Partitioner} {stream : String} {deed : Intake.Deed}
    (outer : deed.isInner = false) (l : Ledger) :
    (l.act p stream deed).intake.gate = l.intake.gate.after p stream deed := by
  have hgate := Intake.gate_of_outer outer l.intake
  have hquiet (quiet : deed.comes = []) :
      (l.intake.act deed).gate =
        { l.intake.gate with
          signals := (l.intake.act deed).signals
          closed := (l.intake.act deed).listenerClosed } := by
    rw [hgate, quiet, List.append_nil]
  cases deed with
  | move | hear | arrange => cases outer
  | drain => exact hquiet rfl
  | occur event =>
    cases event with
    | connect c =>
      cases hc : l.intake.gate.admits p stream c with
      | true =>
        rw [act_of_admits ((l.intake.admits_connect c).trans hc), hgate, Gate.after, if_pos hc]
        rfl
      | false =>
        rw [Ledger.act, l.intake.admits_connect, hc, Gate.after, hc]
        rfl
    | receive count =>
      obtain ⟨awake, hact⟩ := l.intake.act_receive count
      rw [act_of_admits rfl, hquiet rfl, hact]
      rfl
    | acceptError e =>
      rw [act_of_admits rfl, hgate]
      rfl
    | arrive | closeSink | turnFuse | letGoOfFuse | cancel | closeListener => exact hquiet rfl

end FrameIntake
