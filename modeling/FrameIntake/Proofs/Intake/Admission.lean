import FrameIntake.Proofs.Connection.Dues
import FrameIntake.Proofs.Intake.Still

/-!
The queue before the acceptor. What comes to be accepted is taken in the order in which it came, each
connection for one handler, and nothing is taken while the fuse is burned or once the listener is closed
(`run_orderly`). A burn may come at any time, also while the acceptor waits for a connection.
-/

namespace FrameIntake

/-- What an accept can take: a connection by its number, or an error. -/
inductive Ticket
  | connection (id : Nat)
  | failure (error : IoError)
  deriving DecidableEq

namespace Ticket

def id? : Ticket → Option Nat
  | connection id => some id
  | failure _ => none

def error? : Ticket → Option IoError
  | connection _ => none
  | failure e => some e

end Ticket

def Arrival.ticket : Arrival → Ticket
  | connection c => .connection c.id
  | failure e => .failure e

/-- A ticket that was taken, with the signals and the listener as they were then. -/
structure Taking where
  ticket : Ticket
  signals : Signals
  closed : Bool

/-- The accept error that is worth a report. -/
def Taking.reported (t : Taking) : Option IoError :=
  if t.signals.cancelled || t.closed then none else t.ticket.error?

def Notice.acceptError? : Notice → Option IoError
  | .acceptFailed e _ => some e
  | _ => none

/-- A handler has nothing to say of accepts. -/
theorem Connection.step_acceptError {c : Connection} {signals : Signals} {sink : Sink} {left : Nat}
    {g : Handled} (h : c.step signals sink left = some g) :
    (g.supervised c.phase).notices.filterMap Notice.acceptError? = [] := by
  have hsupervised : (g.supervised c.phase).notices.filterMap Notice.acceptError? =
      g.notices.filterMap Notice.acceptError? := by
    unfold Handled.supervised
    dsimp only
    split <;> simp [Notice.acceptError?]
  rw [hsupervised]
  cases step_steps h with
  | opened unstarted | gaveUp running lost new | accepted routing offer | linedUp routing offer
  | refused routing offer | panicked routing offer => rfl
  | interrupted running stop =>
    unfold interrupt
    dsimp only
    split <;> rfl
  | read reading hr =>
    cases read_reads hr with
    | message poll | ended poll | pending poll => rfl
    | failed poll =>
      rename_i e r rest
      cases e with
      | framing e => rfl
      | trailing bytes => rfl
      | io e =>
        unfold fail
        dsimp only
        split <;> rfl

namespace Intake

variable {w v : Intake} {deed : Deed} {p : Partitioner} {stream : String}

/-- The handlers, in the order in which they were started. -/
def handlers (w : Intake) : List Nat := w.connections.map Connection.id

/-- What waits to be accepted. -/
def waiting (w : Intake) : List Ticket := w.backlog.map Arrival.ticket

def acceptErrors (w : Intake) : List IoError := w.notices.filterMap Notice.acceptError?

/-- What comes to be accepted. -/
def Deed.comes : Deed → List Ticket
  | .occur (.connect c) => [.connection c.id]
  | .occur (.acceptError e) => [.failure e]
  | _ => []

/-- Nothing is taken. -/
structure Apart (w v : Intake) (comes : List Ticket) : Prop where
  handlers : v.handlers = w.handlers
  waiting : v.waiting = w.waiting ++ comes
  stopped : w.acceptor = .stopped → v.acceptor = .stopped
  counted : v.metrics.errors .accept = w.metrics.errors .accept
  reported : v.acceptErrors = w.acceptErrors

theorem Apart.of_same (handlers : v.handlers = w.handlers) (waiting : v.waiting = w.waiting)
    (acceptor : v.acceptor = w.acceptor) (metrics : v.metrics = w.metrics)
    (notices : v.notices = w.notices) : w.Apart v [] := by
  refine ⟨handlers, ?_, fun h => acceptor.trans h, ?_, ?_⟩
  · rw [waiting, List.append_nil]
  · rw [metrics]
  · rw [acceptErrors, notices, acceptErrors]

theorem handlers_map (w : Intake) (f : Connection → Connection) (hf : ∀ c, (f c).id = c.id) :
    (w.connections.map f).map Connection.id = w.handlers := by
  rw [List.map_map]
  exact congrArg (fun g => w.connections.map g) (funext hf)

theorem stepConnection_apart {id : Nat} (h : w.stepConnection id = some v) : w.Apart v [] := by
  obtain ⟨front, c, back, g, hcs, _, hs, rfl⟩ := stepConnection_split h
  obtain ⟨hid, _⟩ := Connection.step_sink hs
  refine ⟨?_, (List.append_nil _).symm, fun ha => ha, ?_, ?_⟩
  · have hconn : (w.handled (g.supervised c.phase) (front ++ g.connection :: back)).connections =
        front ++ g.connection :: back := rfl
    rw [handlers, handlers, hconn, hcs]
    simp [hid]
  · have := Metrics.count_recordAll w.metrics (g.supervised c.phase).metrics (.error .accept)
    rwa [Connection.step_accept hs] at this
  · have hnotices : (w.handled (g.supervised c.phase) (front ++ g.connection :: back)).notices =
        w.notices ++ (g.supervised c.phase).notices := rfl
    rw [acceptErrors, hnotices, List.filterMap_append, Connection.step_acceptError hs,
      List.append_nil, acceptErrors]

theorem act_apart (w : Intake) (h : deed ≠ .move .acceptor) : w.Apart (w.act deed) deed.comes := by
  cases deed with
  | move task =>
    cases task with
    | acceptor => exact absurd rfl h
    | connection id =>
      rw [act]
      cases hm : w.move (.connection id) with
      | none => exact .of_same rfl rfl rfl rfl rfl
      | some v => exact stepConnection_apart hm
  | hear => exact .of_same (w.handlers_map _ Connection.hear_id) rfl rfl rfl rfl
  | drain | arrange awake spent turns paused => exact .of_same rfl rfl rfl rfl rfl
  | occur event =>
    cases event with
    | connect c =>
      refine ⟨rfl, ?_, id, rfl, rfl⟩
      exact List.map_append
    | acceptError e =>
      refine ⟨rfl, ?_, id, rfl, rfl⟩
      exact List.map_append
    | arrive id read =>
      have hid (c : Connection) : (if c.id = id then c.arrive read else c).id = c.id := by
        split
        · exact c.arrive_id read
        · rfl
      refine .of_same (w.handlers_map _ hid) ?_ rfl rfl rfl
      have hticket (arrival : Arrival) :
          (arrival.map fun c => if c.id = id then c.arrive read else c).ticket = arrival.ticket := by
        cases arrival with
        | connection c => exact congrArg Ticket.connection (hid c)
        | failure e => rfl
      have hwaiting : (w.act (.occur (.arrive id read))).waiting =
          (w.backlog.map (Arrival.map fun c => if c.id = id then c.arrive read else c)).map
            Arrival.ticket := rfl
      rw [hwaiting, List.map_map]
      exact congrArg (fun g => w.backlog.map g) (funext hticket)
    | turnFuse burned =>
      refine ⟨rfl, (List.append_nil _).symm, id, rfl, ?_⟩
      have hnotices : (w.act (.occur (.turnFuse burned))).notices =
          w.notices ++ Signals.noticesOfTurn burned (w.signals.turn burned).2 := rfl
      rw [acceptErrors, hnotices, List.filterMap_append, acceptErrors]
      unfold Signals.noticesOfTurn
      cases burned <;> split <;> simp [Notice.acceptError?]
    | receive count =>
      obtain ⟨awake, hact⟩ := w.act_receive count
      rw [hact]
      exact .of_same rfl rfl rfl rfl rfl
    | letGoOfFuse | cancel | closeListener | closeSink => exact .of_same rfl rfl rfl rfl rfl

/-- A ticket as it is taken now. -/
def taking (w : Intake) (ticket : Ticket) : Taking :=
  { ticket, signals := w.signals, closed := w.listenerClosed }

/-- What a step of the acceptor does to its queue: nothing, or it takes the first that waits there, while
the fuse is clear and the listener open. -/
inductive Serves (w v : Intake) : Prop
  | aside (apart : w.Apart v [])
  | takes (ticket : Ticket) (next : w.waiting = ticket :: v.waiting)
      (clear : w.signals.burned = false) (listening : w.listenerClosed = false)
      (handlers : v.handlers = w.handlers ++ ticket.id?.toList)
      (stopped : v.acceptor = .stopped ∨ ticket.error? = none)
      (counted : v.metrics.errors .accept =
        w.metrics.errors .accept + (w.taking ticket).reported.toList.length)
      (reported : v.acceptErrors = w.acceptErrors ++ (w.taking ticket).reported.toList)

/-- A step that may report something, but no accept error. -/
theorem Apart.of_notices (notices : List Notice) (handlers : v.handlers = w.handlers)
    (waiting : v.waiting = w.waiting) (running : w.acceptor ≠ .stopped) (metrics : v.metrics = w.metrics)
    (reports : v.notices = w.notices ++ notices)
    (other : notices.filterMap Notice.acceptError? = []) : w.Apart v [] := by
  refine ⟨handlers, ?_, fun h => absurd h running, ?_, ?_⟩
  · rw [waiting, List.append_nil]
  · rw [metrics]
  · rw [acceptErrors, reports, List.filterMap_append, other, List.append_nil, acceptErrors]

theorem stepAcceptor_serves (h : w.stepAcceptor = some v) : w.Serves v := by
  cases stepAcceptor_steps h with
  | started unstarted =>
    apply Serves.aside
    exact .of_notices [.acceptorStarted w.localAddress] rfl rfl (by simp [unstarted]) rfl rfl rfl
  | stopped running closed =>
    apply Serves.aside
    exact .of_notices [.acceptorStopped] rfl rfl running rfl rfl rfl
  | held deciding burned active listening =>
    apply Serves.aside
    exact .of_notices [] rfl rfl (by simp [deciding]) rfl (by simp) rfl
  | began deciding clear active listening =>
    apply Serves.aside
    exact .of_notices [] rfl rfl (by simp [deciding]) rfl (by simp) rfl
  | cleared holding clear listening =>
    apply Serves.aside
    exact .of_notices [] rfl rfl (by simp [holding]) rfl (by simp) rfl
  | abandoned accepting burned =>
    apply Serves.aside
    exact .of_notices [] rfl rfl (by simp [accepting]) rfl (by simp) rfl
  | accepted accepting listening next clear =>
    rename_i c rest
    have hsilent : (w.taking (.connection c.id)).reported = none := by
      simp [taking, Taking.reported, Ticket.error?]
    refine .takes (.connection c.id) ?_ clear listening ?_ (.inr rfl) ?_ ?_
    · rw [waiting, next]
      rfl
    · simp [handlers, accept, report, Ticket.id?]
    · rw [hsilent]
      rfl
    · rw [hsilent]
      simp [acceptErrors, accept, report, Notice.acceptError?]
  | failed accepting listening next clear =>
    rename_i e rest
    have hwaiting : w.waiting = .failure e :: rest.map Arrival.ticket := by
      rw [waiting, next]
      rfl
    cases hc : w.signals.cancelled with
    | true =>
      have hfail : ({ w with backlog := rest } : Intake).failAccept e =
          ({ w with backlog := rest } : Intake).stopAcceptor := by
        rw [failAccept, hc]
        rfl
      have hsilent : (w.taking (.failure e)).reported = none := by
        simp [taking, Taking.reported, hc]
      rw [hfail]
      refine .takes (.failure e) hwaiting clear listening (List.append_nil _).symm (.inl rfl) ?_ ?_
      · rw [hsilent]
        rfl
      · rw [hsilent]
        simp [acceptErrors, stopAcceptor, Notice.acceptError?]
    | false =>
      have hfail : ({ w with backlog := rest } : Intake).failAccept e =
          { ({ w with backlog := rest } : Intake).report [.acceptFailed e w.localAddress] with
            metrics := w.metrics.record (.error .accept) }.stopAcceptor := by
        rw [failAccept, hc, listening]
        rfl
      have hreported : (w.taking (.failure e)).reported = some e := by
        simp [taking, Taking.reported, hc, listening, Ticket.error?]
      rw [hfail]
      refine .takes (.failure e) hwaiting clear listening (List.append_nil _).symm (.inl rfl) ?_ ?_
      · rw [hreported]
        simp [stopAcceptor, Metrics.record]
      · rw [hreported]
        simp [acceptErrors, stopAcceptor, report, Notice.acceptError?]

end Intake

/-- An intake with what has come to be accepted, and with what of it was taken. -/
structure Docket where
  intake : Intake
  came : List Ticket := []
  taken : List Taking := []

namespace Docket

open Intake (Deed)

/-- What is gone from the front of the queue. -/
def gone (w v : Intake) : List Taking :=
  (w.waiting.take (w.waiting.length - v.waiting.length)).map w.taking

def act (p : Partitioner) (stream : String) (d : Docket) (deed : Deed) : Docket :=
  if d.intake.admits p stream deed then
    { intake := d.intake.act deed
      came := d.came ++ deed.comes
      taken := d.taken ++ gone d.intake (d.intake.act deed) }
  else d

def run (p : Partitioner) (stream : String) (d : Docket) (deeds : List Deed) : Docket :=
  deeds.foldl (act p stream) d

/-- Before anything has come. The sink may be of any kind and in any state. -/
def start (localAddress : Option String) (signals : Signals) (sink : Sink) : Docket :=
  { intake := { localAddress, signals, sink } }

variable {p : Partitioner} {stream : String} {d : Docket} {w v : Intake} {deed : Deed}

theorem gone_of_apart {comes : List Ticket} (h : w.Apart v comes) : gone w v = [] := by
  have hlen : w.waiting.length - v.waiting.length = 0 := by
    rw [h.waiting, List.length_append]
    exact Nat.sub_eq_zero_of_le (Nat.le_add_right _ _)
  rw [gone, hlen, List.take_zero, List.map_nil]

theorem gone_of_next {ticket : Ticket} (h : w.waiting = ticket :: v.waiting) :
    gone w v = [w.taking ticket] := by
  have hlen : w.waiting.length - v.waiting.length = 1 := by
    rw [h, List.length_cons]
    exact Nat.add_sub_cancel_left _ _
  rw [gone, hlen, h]
  rfl

/-- What is kept of the takings. -/
structure InOrder (d : Docket) : Prop where
  clear : ∀ t ∈ d.taken, t.signals.burned = false ∧ t.closed = false
  queue : d.came = d.taken.map Taking.ticket ++ d.intake.waiting
  handlers : d.intake.handlers = (d.taken.map Taking.ticket).filterMap Ticket.id?
  last : ∀ t ∈ d.taken.dropLast, t.ticket.error? = none
  served : d.intake.acceptor = .stopped ∨ ∀ t ∈ d.taken, t.ticket.error? = none
  counted : d.intake.metrics.errors .accept = (d.taken.filterMap Taking.reported).length
  reported : d.intake.acceptErrors = d.taken.filterMap Taking.reported

theorem InOrder.apart {comes : List Ticket} (h : d.InOrder) (ha : d.intake.Apart v comes) :
    InOrder { intake := v, came := d.came ++ comes, taken := d.taken ++ gone d.intake v } := by
  rw [gone_of_apart ha, List.append_nil]
  refine ⟨h.clear, ?_, ha.handlers.trans h.handlers, h.last, h.served.imp_left ha.stopped,
    ha.counted.trans h.counted, ha.reported.trans h.reported⟩
  rw [ha.waiting, h.queue, List.append_assoc]

theorem InOrder.serves (h : d.InOrder) (running : d.intake.acceptor ≠ .stopped)
    (hs : d.intake.Serves v) :
    InOrder { intake := v, came := d.came ++ [], taken := d.taken ++ gone d.intake v } := by
  cases hs with
  | aside apart => exact h.apart apart
  | takes ticket next clear listening handlers stopped counted reported =>
    -- Who still runs has taken no error yet, so this one is the first, if it is one.
    have hconnections := h.served.resolve_left running
    have hreported : (d.taken ++ [d.intake.taking ticket]).filterMap Taking.reported =
        d.taken.filterMap Taking.reported ++ (d.intake.taking ticket).reported.toList := by
      cases hr : (d.intake.taking ticket).reported <;> simp [hr]
    have hall {q : Taking → Prop} (hold : ∀ t ∈ d.taken, q t) (hnew : q (d.intake.taking ticket)) :
        ∀ t ∈ d.taken ++ [d.intake.taking ticket], q t := by
      intro t ht
      rcases List.mem_append.mp ht with ht | ht
      · exact hold t ht
      · rw [List.mem_singleton.mp ht]
        exact hnew
    rw [gone_of_next next]
    refine ⟨?_, ?_, ?_, ?_, stopped.imp_right ?_, ?_, ?_⟩
    · apply hall h.clear
      exact ⟨clear, listening⟩
    · rw [List.append_nil, h.queue, next]
      simp [Intake.taking]
    · rw [handlers, h.handlers]
      cases hi : ticket.id? <;> simp [Intake.taking, hi]
    · rw [List.dropLast_concat]
      exact hconnections
    · exact hall hconnections
    · rw [counted, hreported, List.length_append, h.counted]
    · rw [reported, hreported, h.reported]

theorem InOrder.act (h : d.InOrder) (deed : Deed) : (d.act p stream deed).InOrder := by
  unfold Docket.act
  split
  · by_cases ha : deed = .move .acceptor
    · subst ha
      rw [Intake.act]
      cases hs : d.intake.move .acceptor with
      | none => exact h.apart (.of_same rfl rfl rfl rfl rfl)
      | some v =>
        have running : d.intake.acceptor ≠ .stopped := by
          intro ha
          simp [Intake.move, Intake.stepAcceptor, ha] at hs
        exact h.serves running (Intake.stepAcceptor_serves hs)
    · exact h.apart (d.intake.act_apart ha)
  · exact h

theorem InOrder.run (h : d.InOrder) (p : Partitioner) (stream : String) (deeds : List Deed) :
    (d.run p stream deeds).InOrder := by
  induction deeds generalizing d with
  | nil => exact h
  | cons deed deeds ih => exact ih (h.act deed)

theorem inOrder_start (localAddress : Option String) (signals : Signals) (sink : Sink) :
    (start localAddress signals sink).InOrder := by
  refine ⟨?_, rfl, rfl, ?_, .inr ?_, rfl, rfl⟩
  all_goals
    intro t ht
    cases ht

/-- Nothing is taken while the fuse is burned, nor once the listener is closed or the acceptor stopped. -/
theorem act_of_barred (d : Docket) (deed : Deed)
    (h : d.intake.signals.burned = true ∨ d.intake.listenerClosed = true ∨ d.intake.acceptor = .stopped) :
    (d.act p stream deed).taken = d.taken := by
  unfold Docket.act
  split
  · have hgone : gone d.intake (d.intake.act deed) = [] := by
      by_cases ha : deed = .move .acceptor
      · subst ha
        rw [Intake.act]
        cases hs : d.intake.move .acceptor with
        | none => exact gone_of_apart (.of_same rfl rfl rfl rfl rfl)
        | some v =>
          cases Intake.stepAcceptor_serves hs with
          | aside apart => exact gone_of_apart apart
          | takes ticket next clear listening handlers stopped counted reported =>
            rcases h with hb | hl | ha
            · cases clear.symm.trans hb
            · cases listening.symm.trans hl
            · simp [Intake.move, Intake.stepAcceptor, ha] at hs
      · exact gone_of_apart (d.intake.act_apart ha)
    rw [hgone, List.append_nil]
  · rfl

theorem act_over (d : Docket) (deed : Deed)
    (h : d.intake.listenerClosed = true ∨ d.intake.acceptor = .stopped) :
    (d.act p stream deed).intake.listenerClosed = true ∨
      (d.act p stream deed).intake.acceptor = .stopped := by
  unfold Docket.act
  split
  · exact h.imp Intake.act_closed Intake.act_stopped
  · exact h

theorem run_over (d : Docket) (p : Partitioner) (stream : String) (deeds : List Deed)
    (h : d.intake.listenerClosed = true ∨ d.intake.acceptor = .stopped) :
    (d.run p stream deeds).taken = d.taken := by
  induction deeds generalizing d with
  | nil => rfl
  | cons deed deeds ih => exact (ih _ (d.act_over deed h)).trans (d.act_of_barred deed (.inr h))

/-- A run adds to what has come and to what was taken. -/
theorem run_adds (d : Docket) (p : Partitioner) (stream : String) (deeds : List Deed) :
    d.came <+: (d.run p stream deeds).came ∧ d.taken <+: (d.run p stream deeds).taken := by
  induction deeds generalizing d with
  | nil => exact ⟨List.prefix_refl _, List.prefix_refl _⟩
  | cons deed deeds ih =>
    obtain ⟨hcame, htaken⟩ := ih (d.act p stream deed)
    have hact : d.came <+: (d.act p stream deed).came ∧ d.taken <+: (d.act p stream deed).taken := by
      unfold Docket.act
      split
      · exact ⟨List.prefix_append _ _, List.prefix_append _ _⟩
      · exact ⟨List.prefix_refl _, List.prefix_refl _⟩
    exact ⟨hact.1.trans hcame, hact.2.trans htaken⟩

theorem run_nodup (d : Docket) (p : Partitioner) (stream : String) (h : d.intake.ids.Nodup) (deeds : List Deed) :
    (d.run p stream deeds).intake.ids.Nodup := by
  induction deeds generalizing d with
  | nil => exact h
  | cons deed deeds ih =>
    apply ih
    unfold Docket.act
    split
    · exact Intake.nodup_act h ‹_›
    · exact h

/-- Those who wait now are the first to be taken from now on. -/
theorem InOrder.next (h : d.InOrder) (p : Partitioner) (stream : String) (deeds : List Deed) :
    ∃ more, (d.run p stream deeds).taken = d.taken ++ more ∧
      (more.map Taking.ticket <+: d.intake.waiting ∨ d.intake.waiting <+: more.map Taking.ticket) := by
  have hlater := (h.run p stream deeds).queue
  obtain ⟨⟨new, hnew⟩, ⟨more, hmore⟩⟩ := d.run_adds p stream deeds
  refine ⟨more, hmore.symm, ?_⟩
  rw [← hnew, ← hmore, h.queue, List.map_append, List.append_assoc, List.append_assoc] at hlater
  have hrest := List.append_cancel_left hlater
  exact List.prefix_or_prefix_of_prefix ⟨_, hrest.symm⟩ (List.prefix_append _ _)

/-- How an acceptor serves its queue. -/
structure Orderly (p : Partitioner) (stream : String) (d : Docket) : Prop where
  /-- Each was taken while the fuse was clear and the listener open. -/
  clear : ∀ t ∈ d.taken, t.signals.burned = false ∧ t.closed = false
  /-- Each connection that was taken has one handler, and there is no other. -/
  handlers : d.intake.handlers = (d.taken.map Taking.ticket).filterMap Ticket.id?
  distinct : d.intake.handlers.Nodup
  /-- Nothing that has come is lost, nor does anything overtake. -/
  queue : d.came = d.taken.map Taking.ticket ++ d.intake.waiting
  held : d.intake.signals.burned = true → ∀ deed, (d.act p stream deed).taken = d.taken
  next : ∀ deeds, ∃ more, (d.run p stream deeds).taken = d.taken ++ more ∧
    (more.map Taking.ticket <+: d.intake.waiting ∨ d.intake.waiting <+: more.map Taking.ticket)
  serves : d.intake.Still → d.intake.signals.burned = false → d.intake.acceptor ≠ .stopped →
    d.intake.waiting = []
  /-- An accept error is the last thing that is taken. -/
  failure : ∀ front t back, d.taken = front ++ t :: back → t.ticket.error? ≠ none →
    back = [] ∧ d.intake.acceptor = .stopped
  finished : d.intake.listenerClosed = true ∨ d.intake.acceptor = .stopped → ∀ deeds,
    (d.run p stream deeds).taken = d.taken ∧
      (d.run p stream deeds).intake.handlers = d.intake.handlers
  stops : d.intake.Still → d.intake.listenerClosed = true → d.intake.acceptor = .stopped
  /-- An accept error is reported unless something else ends the acceptor at that moment. -/
  reported : d.intake.acceptErrors = d.taken.filterMap Taking.reported
  counted : d.intake.metrics.errors .accept = d.intake.acceptErrors.length
  once : d.intake.acceptErrors.length ≤ 1

theorem InOrder.failure (h : d.InOrder) {front back : List Taking} {t : Taking}
    (split : d.taken = front ++ t :: back) (error : t.ticket.error? ≠ none) :
    back = [] ∧ d.intake.acceptor = .stopped := by
  constructor
  · rcases List.eq_nil_or_concat back with hb | ⟨rest, last, rfl⟩
    · exact hb
    · have hinit : d.taken.dropLast = front ++ t :: rest := by
        rw [split, List.concat_eq_append, ← List.cons_append, ← List.append_assoc, List.dropLast_concat]
      exact absurd (h.last t (by simp [hinit])) error
  · rcases h.served with hs | hall
    · exact hs
    · exact absurd (hall t (by simp [split])) error

theorem InOrder.once (h : d.InOrder) : (d.taken.filterMap Taking.reported).length ≤ 1 := by
  have hsilent : d.taken.dropLast.filterMap Taking.reported = [] := by
    apply List.filterMap_eq_nil_iff.mpr
    intro t ht
    unfold Taking.reported
    split
    · rfl
    · exact h.last t ht
  rcases List.eq_nil_or_concat d.taken with ht | ⟨front, last, ht⟩
  · simp [ht]
  · rw [List.concat_eq_append] at ht
    rw [ht, List.dropLast_concat] at hsilent
    rw [ht, List.filterMap_append, hsilent, List.nil_append]
    cases hr : last.reported <;> simp [hr]

/-- Whatever comes and in whatever order, the acceptor serves its queue in order. -/
theorem run_orderly (p : Partitioner) (stream : String) (localAddress : Option String)
    (signals : Signals) (sink : Sink) (deeds : List Deed) :
    ((start localAddress signals sink).run p stream deeds).Orderly p stream := by
  have h := (inOrder_start localAddress signals sink).run p stream deeds
  have hnodup := (start localAddress signals sink).run_nodup p stream List.nodup_nil deeds
  generalize (start localAddress signals sink).run p stream deeds = d at h hnodup
  refine ⟨h.clear, h.handlers, Intake.nodup_connections hnodup, h.queue, ?_, h.next p stream, ?_, ?_, ?_, ?_,
    h.reported, ?_, ?_⟩
  · intro hb deed
    exact d.act_of_barred deed (.inl hb)
  · intro still clear running
    rcases Intake.acceptor_at_rest (still .acceptor) with hs | ⟨_, ⟨_, hb⟩ | ⟨_, _, hq⟩⟩
    · exact absurd hs running
    · cases clear.symm.trans hb
    · rw [Intake.waiting, hq, List.map_nil]
  · intro front t back
    exact h.failure
  · intro hover deeds
    have htaken := d.run_over p stream deeds hover
    exact ⟨htaken, by rw [(h.run p stream deeds).handlers, htaken, h.handlers]⟩
  · intro still closed
    rcases Intake.acceptor_at_rest (still .acceptor) with hs | ⟨hl, _⟩
    · exact hs
    · cases closed.symm.trans hl
  · rw [h.counted, h.reported]
  · rw [h.reported]
    exact h.once

end Docket

end FrameIntake
