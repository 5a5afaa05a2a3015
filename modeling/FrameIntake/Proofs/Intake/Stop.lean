import FrameIntake.Proofs.Intake.Ledger
import Mathlib.Data.List.Nodup

/-!
Signals to stop win. A handler that runs while one is there looks at nothing else: it ends with the
outcome that the signal calls for, and a message that it had read already stays undelivered
(`stop_signals_win`).
-/

namespace FrameIntake

namespace Signals

/-- A shutdown calls for its outcome whatever the fuse is. -/
def Calls (s : Signals) : Outcome → Prop
  | .shutdown => s.cancelled = true
  | .fuseBurned => s.cancelled = false ∧ s.burned = true
  | _ => False

theorem stop?_of_calls {s : Signals} {outcome : Outcome} (h : s.Calls outcome) :
    s.stop? = some outcome := by
  cases outcome with
  | shutdown => exact if_pos h
  | fuseBurned => simp [stop?, h.1, h.2]
  | peerClosed | malformed | readError | sinkClosed => exact h.elim

end Signals

namespace Connection

variable {c : Connection} {signals : Signals} {outcome : Outcome}

/-- The step `g` ends the handler of `c`, and does nothing else. -/
structure Halted (c : Connection) (sink : Sink) (outcome : Outcome) (g : Handled) : Prop where
  /-- What has arrived stays unread, and what was read already stays where it is. -/
  connection : g.connection = { c with phase := .ended (.outcome outcome) }
  sent : g.sink.sent = sink.sent
  waiting : g.sink.waiting = sink.waiting.erase c.id
  /-- Neither a message nor an error is counted. -/
  metrics : (g.supervised c.phase).metrics = [.connectionEnded]

theorem interrupt_halted (running : c.isRunning = true) (sink : Sink) (outcome : Outcome) :
    c.Halted sink outcome (c.interrupt sink outcome) := by
  refine ⟨rfl, rfl, rfl, ?_⟩
  rcases isRunning_cases running with phase | ⟨m, inLine, phase⟩
  · rw [phase]
    rfl
  · rw [phase]
    rfl

/-- In either wait, and whatever has arrived, is in the sink's queue or is free in it. -/
theorem step_halts (running : c.isRunning = true) (calls : signals.Calls outcome) (sink : Sink)
    (left : Nat) : ∃ g, c.step signals sink left = some g ∧ c.Halted sink outcome g := by
  have stop := Signals.stop?_of_calls calls
  obtain ⟨g, hs⟩ := Option.isSome_iff_exists.mp
    (step_of_stop stop (isEnded_of_running running) sink left)
  obtain rfl := step_interrupts stop running hs
  exact ⟨_, hs, interrupt_halted running sink outcome⟩

theorem Becomes.id {sink : Sink} {left : Nat} {k : Connection}
    (h : c.Becomes signals sink left k) : k.id = c.id := by
  cases h with
  | same => rfl
  | arrive read => exact c.arrive_id read
  | hear => exact c.hear_id
  | step hs => exact (step_sink hs).1

theorem unstarted_of_not_running (live : c.isEnded = false) (idle : ¬ c.isRunning = true) :
    c.phase = .unstarted := by
  unfold isEnded at live
  unfold isRunning at idle
  cases phase : c.phase with
  | unstarted => rfl
  | reading | routing => simp [phase] at idle
  | ended => simp [phase] at live

end Connection

namespace Intake

variable {w v : Intake} {c d : Connection} {n : Nat} {p : Partitioner} {stream : String} {deed : Deed}

theorem eq_of_id (numbers : w.ids.Nodup) (hc : c ∈ w.connections) (hd : d ∈ w.connections)
    (same : c.id = d.id) : c = d :=
  List.inj_on_of_nodup_map (nodup_connections numbers) hc hd same

/-- A handler that can step is moved by its task. -/
theorem move_of_step (numbers : w.ids.Nodup) (hc : c ∈ w.connections) {g : Handled}
    (hs : c.step w.signals w.sink w.left = some g) :
    ∃ front back, w.connections = front ++ c :: back ∧
      w.move (.connection c.id) =
        some (w.handled (g.supervised c.phase) (front ++ g.connection :: back)) := by
  have moves : (w.stepConnection c.id).isSome = true := by
    simpa [stepConnection] using stepAmong_of_mem hc (nodup_connections numbers) (by rw [hs]; rfl)
  obtain ⟨v, hv⟩ := Option.isSome_iff_exists.mp moves
  obtain ⟨front, d, back, g', split, same, hs', rfl⟩ := stepConnection_split hv
  obtain rfl := eq_of_id numbers (split ▸ by simp) hc same
  obtain rfl := Option.some.inj (hs.symm.trans hs')
  exact ⟨front, back, split, hv⟩

theorem ne_of_waiting (numbers : w.ids.Nodup) (hc : c ∈ w.connections)
    (waits : .connection d ∈ w.backlog) : c.id ≠ d.id := by
  rw [ids, peers, List.map_append] at numbers
  have hd : d ∈ w.backlog.filterMap Arrival.connection? := List.mem_filterMap.mpr ⟨_, waits, rfl⟩
  exact (List.nodup_append.mp numbers).2.2 _ (List.mem_map_of_mem hc) _ (List.mem_map_of_mem hd)

/-- The handler of connection `n` has ended. -/
def HasEnded (w : Intake) (n : Nat) : Prop := ∃ c ∈ w.connections, c.id = n ∧ c.isEnded = true

theorem HasEnded.act (h : w.HasEnded n) (numbers : w.ids.Nodup) (deed : Deed) :
    (w.act deed).HasEnded n := by
  obtain ⟨c, hc, rfl, ended⟩ := h
  have listed := (w.act_ids deed).2.subset (List.mem_map_of_mem hc)
  obtain ⟨k, hk, same⟩ := List.mem_map.mp listed
  refine ⟨k, hk, same, ?_⟩
  rcases w.act_connections deed hk with ⟨d, hd, becomes⟩ | ⟨-, waits⟩
  · obtain rfl := eq_of_id numbers hd hc (becomes.id.symm.trans same)
    exact becomes.isEnded ended
  · exact absurd same.symm (ne_of_waiting numbers hc waits)

end Intake

namespace Ledger

open Intake (Deed)

variable {p : Partitioner} {stream : String} {l : Ledger} {c : Connection} {outcome : Outcome} {n : Nat}

/-- Who has ended sends nothing. -/
theorem gained_of_ended {w v : Intake} (h : w.HasEnded n) (numbers : w.ids.Nodup) {task : Task}
    (hm : w.move task = some v) : messagesOf (w.sink.gained v.sink) n = [] := by
  apply messagesOf_of_ne
  intro d hd
  cases task with
  | acceptor =>
    obtain ⟨_, hs, _⟩ := Intake.stepAcceptor_frame hm
    rw [hs, gained_self] at hd
    cases hd
  | connection id =>
    obtain ⟨c, hc, rfl, ended⟩ := h
    obtain ⟨front, k, back, g, split, _, hs, rfl⟩ := Intake.stepConnection_split hm
    obtain ⟨_, _, new, sent, senders, _⟩ := Connection.step_sink hs
    rw [Intake.handled_sink, Sink.gained_of_append sent, List.mem_reverse] at hd
    rw [senders d hd]
    intro same
    obtain rfl := Intake.eq_of_id numbers (split ▸ by simp) hc same
    rw [Connection.step_of_ended ended] at hs
    cases hs

theorem gained_act_of_ended {w : Intake} (h : w.HasEnded n) (numbers : w.ids.Nodup) (deed : Deed) :
    messagesOf (w.sink.gained (w.act deed).sink) n = [] := by
  by_cases moves : ∃ task, deed = .move task
  · obtain ⟨task, rfl⟩ := moves
    rw [Intake.act]
    cases hm : w.move task with
    | none =>
      rw [Option.getD_none, gained_self]
      rfl
    | some v => exact gained_of_ended h numbers hm
  · rw [gained_act w fun task same => moves ⟨task, same⟩]
    rfl

/-- A handler that has ended has sent all that it ever sends. -/
theorem messagesOf_run_of_ended (h : l.intake.HasEnded n) (numbers : l.intake.ids.Nodup)
    (deeds : List Deed) : messagesOf (l.run p stream deeds).accepted n = messagesOf l.accepted n := by
  suffices kept : (l.run p stream deeds).intake.HasEnded n ∧ (l.run p stream deeds).intake.ids.Nodup ∧
      messagesOf (l.run p stream deeds).accepted n = messagesOf l.accepted n from kept.2.2
  refine run_keeps (P := fun m => m.intake.HasEnded n ∧ m.intake.ids.Nodup ∧
    messagesOf m.accepted n = messagesOf l.accepted n) ?_ ⟨h, numbers, rfl⟩ deeds
  rintro m deed admitted ⟨ended, numbers, same⟩
  rw [act_of_admits admitted]
  refine ⟨ended.act numbers deed, Intake.nodup_act numbers admitted, ?_⟩
  rw [messagesOf_append, gained_act_of_ended ended numbers deed, List.append_nil, same]

/-- From `l` to `m` nothing was sent, and neither a message nor an error was counted. -/
structure Quiet (l m : Ledger) : Prop where
  accepted : m.accepted = l.accepted
  messages : m.intake.metrics.messages = l.intake.metrics.messages
  errors : m.intake.metrics.errors = l.intake.metrics.errors

theorem Quiet.trans {m k : Ledger} (h : l.Quiet m) (h' : m.Quiet k) : l.Quiet k :=
  ⟨h'.accepted.trans h.accepted, h'.messages.trans h.messages, h'.errors.trans h.errors⟩

/-- One run of a handler as far as a signal lets it come. The first one opens the connection before it
looks at anything. -/
def visit (c : Connection) : List Deed :=
  if c.phase = .unstarted then [.move (.connection c.id), .move (.connection c.id)]
  else [.move (.connection c.id)]

/-- The handler of `c` runs and is stopped. -/
structure Stops (p : Partitioner) (stream : String) (l : Ledger) (c : Connection) (outcome : Outcome) :
    Prop where
  /-- What has arrived stays unread. -/
  ended : { c with phase := .ended (.outcome outcome) } ∈
    (l.run p stream (visit c)).intake.connections
  quiet : l.Quiet (l.run p stream (visit c))
  /-- What the handler had read already is not sent later either, whatever happens. -/
  silent : ∀ later,
    messagesOf ((l.run p stream (visit c)).run p stream later).accepted c.id =
      messagesOf l.accepted c.id

theorem act_move {task : Task} {v : Intake} (hm : l.intake.move task = some v)
    (quiet : v.sink.sent = l.intake.sink.sent) :
    l.act p stream (.move task) = { l with intake := v } := by
  have unsent : sentAfter l.sent (.move task) = l.sent := rfl
  have unreceived : receivedBy l.intake (.move task) = [] := rfl
  rw [act_of_admits rfl, Intake.act, hm, Option.getD_some, Sink.gained_of_same quiet, unsent,
    unreceived, List.append_nil, List.append_nil]

/-- A handler that looks at the signals finds the one that is there. -/
theorem act_halts (p : Partitioner) (stream : String) (numbers : l.intake.ids.Nodup)
    (hc : c ∈ l.intake.connections) (running : c.isRunning = true)
    (calls : l.intake.signals.Calls outcome) :
    let next := l.act p stream (.move (.connection c.id))
    { c with phase := .ended (.outcome outcome) } ∈ next.intake.connections ∧ l.Quiet next ∧
      next.intake.ids.Nodup := by
  obtain ⟨g, hs, halted⟩ := Connection.step_halts running calls l.intake.sink l.intake.left
  obtain ⟨front, back, split, hm⟩ := Intake.move_of_step numbers hc hs
  have unsent := (congrArg Sink.sent (Intake.handled_sink l.intake g c.phase
    (front ++ g.connection :: back))).trans halted.sent
  have metrics : (l.intake.handled (g.supervised c.phase) (front ++ g.connection :: back)).metrics =
      l.intake.metrics.record .connectionEnded := by
    simp only [Intake.handled, Intake.report, halted.metrics]
    rfl
  dsimp only
  rw [act_move hm unsent, ← halted.connection]
  refine ⟨List.mem_append_right _ List.mem_cons_self, ⟨rfl, ?_, ?_⟩, (Intake.move_ids hm).1 ▸ numbers⟩
  · exact (congrArg Metrics.messages metrics).trans rfl
  · exact (congrArg Metrics.errors metrics).trans rfl

/-- A handler's first run opens its connection, and that is all it has done when it looks. -/
theorem act_opens (p : Partitioner) (stream : String) (numbers : l.intake.ids.Nodup)
    (hc : c ∈ l.intake.connections) (unstarted : c.phase = .unstarted) :
    let next := l.act p stream (.move (.connection c.id))
    { c with phase := .reading } ∈ next.intake.connections ∧ l.Quiet next ∧
      next.intake.ids.Nodup ∧ next.intake.signals = l.intake.signals := by
  have hs : c.step l.intake.signals l.intake.sink l.intake.left =
      some
        { connection := { c with phase := .reading }, sink := l.intake.sink
          notices := [.connectionOpened c.peer c.reader.stream] } := by
    rw [Connection.step, unstarted]
  obtain ⟨front, back, split, hm⟩ := Intake.move_of_step numbers hc hs
  dsimp only
  rw [act_move hm (congrArg Sink.sent (Intake.handled_sink ..))]
  rw [unstarted] at hm ⊢
  exact ⟨List.mem_append_right _ List.mem_cons_self, ⟨rfl, rfl, rfl⟩, (Intake.move_ids hm).1 ▸ numbers,
    rfl⟩

theorem visit_halts (p : Partitioner) (stream : String) (numbers : l.intake.ids.Nodup)
    (hc : c ∈ l.intake.connections) (live : c.isEnded = false)
    (calls : l.intake.signals.Calls outcome) :
    let next := l.run p stream (visit c)
    { c with phase := .ended (.outcome outcome) } ∈ next.intake.connections ∧ l.Quiet next ∧
      next.intake.ids.Nodup := by
  unfold visit
  by_cases unstarted : c.phase = .unstarted
  · rw [if_pos unstarted]
    obtain ⟨opened, quiet, numbers', signals⟩ := act_opens p stream numbers hc unstarted
    obtain ⟨ended, quiet', numbers''⟩ := act_halts p stream numbers' opened rfl (signals ▸ calls)
    exact ⟨ended, quiet.trans quiet', numbers''⟩
  · rw [if_neg unstarted]
    have running : c.isRunning = true := by
      by_contra idle
      exact unstarted (Connection.unstarted_of_not_running live idle)
    exact act_halts p stream numbers hc running calls

theorem stops_of_calls (numbers : l.intake.ids.Nodup) (hc : c ∈ l.intake.connections)
    (live : c.isEnded = false) (calls : l.intake.signals.Calls outcome) :
    l.Stops p stream c outcome := by
  obtain ⟨ended, quiet, numbers'⟩ := visit_halts p stream numbers hc live calls
  refine ⟨ended, quiet, fun later => ?_⟩
  rw [messagesOf_run_of_ended ⟨_, ended, rfl, rfl⟩ numbers' later, quiet.accepted]

/-- Whatever a handler waits for, and whatever is ready: while the consumer shuts down or the fuse is
burned it does nothing but end. So no message of a handler gets to the sink from the first of its runs on
that finds a signal. -/
theorem stop_signals_win (p : Partitioner) (stream : String) :
    (∀ (c : Connection) (signals : Signals) (outcome : Outcome), c.isRunning = true →
      signals.Calls outcome → ∀ sink left, ∃ g, c.step signals sink left = some g ∧
        c.Halted sink outcome g) ∧
    ∀ localAddress signals free fault closed deeds c outcome,
      let l := (start localAddress signals free fault closed).run p stream deeds
      c ∈ l.intake.connections → c.isEnded = false → l.intake.signals.Calls outcome →
        l.Stops p stream c outcome := by
  constructor
  · intro c signals outcome running calls sink left
    exact Connection.step_halts running calls sink left
  · intro localAddress signals free fault closed deeds c outcome l hc live calls
    have through : Through (start localAddress signals free fault closed).intake.sink [] [] :=
      ⟨[], rfl, fun _ => rfl, fun _ => rfl⟩
    have told := (run_told (told_start p stream localAddress signals free fault closed) through deeds).1
    exact stops_of_calls told.nodup hc live calls

/-- A message is on its way and the sink has room, when the fuse burns and the consumer shuts down. -/
theorem stop_signals_win_on_the_way :
    let p : Partitioner := .fixed 1 (by decide)
    let l := (start none {} (some 1) none false).run p "s"
      [.occur (.connect (Connection.start 0 "a" p "s")), .move .acceptor, .move .acceptor,
        .move .acceptor, .occur (.arrive 0 (.data [0x61, 0x62])), .move (.connection 0),
        .move (.connection 0), .occur (.turnFuse true), .occur .cancel]
    l.intake.sink.free = some 1 ∧
      ∃ c ∈ l.intake.connections, c.phase = .routing ⟨[0x61], "s"⟩ false ∧ l.Stops p "s" c .shutdown := by
  intro p l
  have parked : ∃ c ∈ l.intake.connections, c.phase = .routing ⟨[0x61], "s"⟩ false := by
    decide +kernel
  obtain ⟨c, hc, routing⟩ := parked
  have cancelled : l.intake.signals.Calls .shutdown :=
    show l.intake.signals.cancelled = true by decide +kernel
  have live := Connection.isEnded_of_running (Connection.isRunning_of_routing routing)
  exact ⟨by decide +kernel, c, hc, routing,
    (stop_signals_win p "s").2 none {} (some 1) none false _ c .shutdown hc live cancelled⟩

end Ledger

end FrameIntake
