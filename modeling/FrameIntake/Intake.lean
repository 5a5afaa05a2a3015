import FrameIntake.Connection
import FrameIntake.Rest

/-!
The acceptor, the connections it accepted and those that wait to be accepted. While the fuse is burned
the acceptor takes nothing; a burn during a pending accept abandons it and leaves the connection in the
backlog. `settle` runs all tasks until none can move. They have turns, in the order in which something
reached them. A turn lasts for as long as the task can move, but its effort has a limit: a task that
comes to `turnLimit` pauses. A round is `roundLength` turns, or fewer if no task is left. After it the
handlers that were accepted in it hear of what has arrived, and the paused tasks line up again.
-/

namespace FrameIntake

/-- What an accept brings. -/
inductive Arrival
  | connection (connection : Connection)
  | failure (error : IoError)
  deriving DecidableEq, Repr

inductive Acceptor
  | unstarted
  /-- Before the next accept. -/
  | deciding
  /-- Waiting for the fuse to clear. -/
  | holding
  /-- Waiting for a connection. -/
  | accepting
  | stopped
  deriving DecidableEq, Repr

inductive Task
  | acceptor
  | connection (id : Nat)
  deriving DecidableEq, Repr

/-- The most turns of a round. -/
def roundLength : Nat := 61

structure Intake where
  localAddress : Option String
  signals : Signals := {}
  sink : Sink := {}
  listenerClosed : Bool := false
  backlog : List Arrival := []
  acceptor : Acceptor := .unstarted
  /-- Accepts that were begun. -/
  accepts : Nat := 0
  /-- The accepted connections, in the order in which they were accepted. -/
  connections : List Connection := []
  metrics : Metrics := {}
  /-- Notices that nobody has collected yet. -/
  notices : List Notice := []
  /-- The tasks that are to have a turn, first come first. The first one has it. -/
  awake : List Task := []
  /-- The effort of that turn so far. -/
  spent : Nat := 0
  /-- The turns of this round that are over. -/
  turns : Nat := 0
  /-- The tasks that paused in this round, the latest in front. -/
  paused : List Task := []

/-- The steps of a handler as its supervisor counts them: it counts the connection while the handler
runs, and reports how it ended. -/
def Handled.supervised (h : Handled) (before : Phase) : Handled :=
  let opened : List Metric := if before = .unstarted then [.connectionOpened] else []
  match h.connection.phase with
  | .ended (.outcome o) =>
    { h with
      notices := h.notices ++ [.connectionClosed h.connection.peer o]
      metrics := opened ++ h.metrics ++ [.connectionEnded] }
  | .ended (.panicked what) =>
    { h with
      notices := h.notices ++ [.connectionPanicked h.connection.peer what]
      metrics := opened ++ h.metrics ++ [.connectionPanicked, .connectionEnded] }
  | _ => { h with metrics := opened ++ h.metrics }

namespace Arrival

def map (f : Connection → Connection) : Arrival → Arrival
  | connection c => connection (f c)
  | failure e => failure e

def weight : Arrival → Nat
  | connection c => c.weight + 4
  | failure _ => 4

end Arrival

namespace Acceptor

/-- Steps to its next wait, at most. It waits in one state or the other, as the fuse is. -/
def rank (burned : Bool) : Acceptor → Nat
  | unstarted => 4
  | stopped => 0
  | deciding => 2
  | holding => if burned then 1 else 3
  | accepting => if burned then 3 else 1

end Acceptor

namespace Intake

def report (w : Intake) (notices : List Notice) : Intake :=
  { w with notices := w.notices ++ notices }

def wake (w : Intake) (task : Task) : Intake :=
  if task ∈ w.awake then w else { w with awake := w.awake ++ [task] }

/-- The effort that is left for the turn. -/
def left (w : Intake) : Nat := turnLimit - w.spent

/-- The first task has come to the limit of its turn. -/
def isExhausted (w : Intake) : Bool := turnLimit ≤ w.spent

def stopAcceptor (w : Intake) : Intake :=
  { w with acceptor := .stopped, notices := w.notices ++ [.acceptorStopped] }

/-- An accept error ends the acceptor. It is an error only while nothing else ends it. -/
def failAccept (w : Intake) (e : IoError) : Intake :=
  if w.signals.cancelled || w.listenerClosed then w.stopAcceptor
  else
    { w.report [.acceptFailed e w.localAddress] with
      metrics := w.metrics.record (.error .accept) }.stopAcceptor

/-- Starts the handler of a connection that was accepted. -/
def accept (w : Intake) (c : Connection) : Intake :=
  { w.report [.connectionAccepted c.peer] with
    acceptor := .deciding
    connections := w.connections ++ [c]
    awake := w.awake ++ [.connection c.id]
    spent := w.spent + c.toll }

/-- One step of the acceptor, or nothing while it waits and once it has stopped. That the fuse has cleared
takes effort to find out. -/
def stepAcceptor (w : Intake) : Option Intake :=
  match w.acceptor with
  | .unstarted =>
    some { w.report [.acceptorStarted w.localAddress] with acceptor := .deciding }
  | .deciding =>
    if w.signals.cancelled || w.listenerClosed then some w.stopAcceptor
    else if w.signals.burned then some { w with acceptor := .holding }
    else some { w with acceptor := .accepting, accepts := w.accepts + 1 }
  | .holding =>
    if w.listenerClosed then some w.stopAcceptor
    else if w.signals.burned then none
    else some { w with acceptor := .deciding, spent := w.spent + 1 }
  | .accepting =>
    if w.signals.burned then some { w with acceptor := .deciding }
    else if w.listenerClosed then some w.stopAcceptor
    else
      match w.backlog with
      | [] => none
      | .connection c :: rest =>
        if c.toll ≤ w.left then some ({ w with backlog := rest }.accept c) else none
      | .failure e :: rest => some ({ w with backlog := rest }.failAccept e)
  | .stopped => none

/-- Steps the first connection numbered `id`. -/
def stepAmong (id : Nat) (signals : Signals) (sink : Sink) (left : Nat) :
    List Connection → Option (Handled × List Connection)
  | [] => none
  | c :: rest =>
    if c.id = id then
      (c.step signals sink left).map fun h => (h.supervised c.phase, h.connection :: rest)
    else (stepAmong id signals sink left rest).map fun (h, rest) => (h, c :: rest)

/-- The intake after a step of a handler, with the connections as the step left them. -/
def handled (w : Intake) (h : Handled) (connections : List Connection) : Intake :=
  { w.report h.notices with
    connections
    sink := h.sink
    metrics := w.metrics.recordAll h.metrics
    spent := w.spent + h.effort }

def stepConnection (w : Intake) (id : Nat) : Option Intake :=
  (stepAmong id w.signals w.sink w.left w.connections).map fun (h, connections) =>
    w.handled h connections

/-- One step of one task. -/
def move (w : Intake) : Task → Option Intake
  | .acceptor => w.stepAcceptor
  | .connection id => w.stepConnection id

/-- The handlers among `connections` that can move. -/
def movableAmong (w : Intake) (connections : List Connection) : List Task :=
  (connections.filter fun c => (c.step w.signals w.sink w.left).isSome).map fun c => .connection c.id

/-- The tasks that can move. -/
def movable (w : Intake) : List Task :=
  (if w.stepAcceptor.isSome then [.acceptor] else []) ++ w.movableAmong w.connections

/-- Puts those of `tasks` in line that are not there yet. -/
def lineUp (w : Intake) (tasks : List Task) : Intake :=
  { w with awake := w.awake ++ tasks.filter (· ∉ w.awake) }

/-- Lines up all tasks that can move. -/
def rouse (w : Intake) : Intake := w.lineUp w.movable

/-- The handlers of streams hear of what has arrived, and those line up that it moves. -/
def hear (w : Intake) : Intake :=
  let told := (w.connections.filter Connection.isUnheard).map Connection.hear
  let heard : Intake := { w with connections := w.connections.map Connection.hear }
  heard.lineUp (w.movableAmong told)

/-- Ends the turn of the first task, which pauses if it is exhausted. With it a round may be over. -/
def endTurn (w : Intake) : Intake :=
  match w.awake with
  | [] => w
  | task :: rest =>
    let paused := if w.isExhausted then task :: w.paused else w.paused
    let next : Intake := { w with awake := rest, spent := 0, turns := w.turns + 1, paused }
    if rest.isEmpty || roundLength ≤ next.turns then
      { next with turns := 0, paused := [] }.hear.lineUp paused
    else next

/-- Whatever the first task does next. Where no task was reached, one that can move takes the turn. -/
def step (w : Intake) : Option Intake :=
  match w.awake with
  | task :: _ => some ((w.move task).getD w.endTurn)
  | [] =>
    if w.connections.any Connection.isUnheard then some w.hear
    else
      w.movable.findSome? fun t => (w.move t).map fun next => { next with awake := t :: next.awake }

/-- Steps that the tasks have before them, at most. -/
def load (w : Intake) : Nat :=
  total Connection.weight w.connections + total Arrival.weight w.backlog +
    w.acceptor.rank w.signals.burned

/-- The part of the effort that makes up for a pause. -/
def fatigue (w : Intake) : Nat := if w.isExhausted then 2 else 0

/-- Gets smaller with everything that a task does, also with what ends its turn. -/
def weight (w : Intake) : Nat :=
  6 * w.load + w.awake.length + 2 * w.paused.length + w.fatigue

theorem stepAmong_weight {id : Nat} {signals : Signals} {sink : Sink} {left : Nat}
    {cs cs' : List Connection} {h : Handled}
    (hs : stepAmong id signals sink left cs = some (h, cs')) :
    total Connection.weight cs' < total Connection.weight cs := by
  induction cs generalizing cs' with
  | nil => contradiction
  | cons c rest ih =>
    rw [stepAmong] at hs
    split at hs
    · obtain ⟨g, hg, he⟩ := Option.map_eq_some_iff.mp hs
      obtain ⟨_, rfl⟩ := Prod.mk.inj he
      have := Connection.step_weight hg
      simp only [total_cons]
      omega
    · obtain ⟨⟨g, ds⟩, hg, he⟩ := Option.map_eq_some_iff.mp hs
      obtain ⟨rfl, rfl⟩ := Prod.mk.inj he
      have := ih hg
      simp only [total_cons]
      omega

theorem rank_pos {acceptor : Acceptor} (h : acceptor ≠ .stopped) (burned : Bool) :
    0 < acceptor.rank burned := by
  cases acceptor <;> cases burned <;> first | contradiction | decide

theorem stopAcceptor_load_lt {w : Intake} (h : w.acceptor ≠ .stopped) :
    w.stopAcceptor.load < w.load := by
  have := rank_pos h w.signals.burned
  have : w.stopAcceptor.load =
      total Connection.weight w.connections + total Arrival.weight w.backlog := rfl
  unfold load at *
  omega

theorem failAccept_load (w : Intake) (e : IoError) :
    (w.failAccept e).load =
      total Connection.weight w.connections + total Arrival.weight w.backlog := by
  unfold failAccept
  split <;> rfl

theorem stepAcceptor_load {w v : Intake} (h : w.stepAcceptor = some v) : v.load < w.load := by
  unfold stepAcceptor at h
  split at h
  · rename_i ha
    simp only [Option.some.injEq] at h
    subst h
    simp [load, report, ha, Acceptor.rank]
  · rename_i ha
    split at h
    · simp only [Option.some.injEq] at h
      subst h
      exact stopAcceptor_load_lt (by simp [ha])
    · split at h
      all_goals
        simp only [Option.some.injEq] at h
        subst h
        simp_all [load, Acceptor.rank]
  · rename_i ha
    split at h
    · simp only [Option.some.injEq] at h
      subst h
      exact stopAcceptor_load_lt (by simp [ha])
    · split at h
      · contradiction
      · simp only [Option.some.injEq] at h
        subst h
        simp_all [load, Acceptor.rank]
  · rename_i ha
    split at h
    · simp only [Option.some.injEq] at h
      subst h
      simp_all [load, Acceptor.rank]
    · split at h
      · simp only [Option.some.injEq] at h
        subst h
        exact stopAcceptor_load_lt (by simp [ha])
      · split at h
        · contradiction
        · rename_i hb _ c rest hl
          split at h
          · simp only [Option.some.injEq] at h
            subst h
            simp [load, accept, report, ha, hl, hb, Acceptor.rank, Arrival.weight]
            omega
          · contradiction
        · rename_i hb _ e rest hl
          simp only [Option.some.injEq] at h
          subst h
          rw [failAccept_load]
          simp only [load, hl, total_cons, Arrival.weight]
          omega
  · contradiction

theorem stepAcceptor_awake {w v : Intake} (h : w.stepAcceptor = some v) :
    v.awake.length ≤ w.awake.length + 1 ∧ v.paused = w.paused := by
  unfold stepAcceptor failAccept at h
  repeat' split at h
  all_goals simp only [Option.some.injEq, reduceCtorEq] at h
  all_goals
    subst h
    simp [accept, report, stopAcceptor]

theorem fatigue_le (w : Intake) : w.fatigue ≤ 2 := by
  unfold fatigue
  split <;> decide

theorem move_weight {w v : Intake} {task : Task} (h : w.move task = some v) :
    v.weight + 3 ≤ w.weight := by
  have := v.fatigue_le
  cases task with
  | acceptor =>
    have := stepAcceptor_load h
    obtain ⟨ha, hp⟩ := stepAcceptor_awake h
    unfold weight
    rw [hp]
    omega
  | connection id =>
    obtain ⟨⟨g, cs⟩, hs, rfl⟩ := Option.map_eq_some_iff.mp h
    have := stepAmong_weight hs
    simp only [weight, load, handled, report] at *
    omega

theorem lineUp_weight_le (w : Intake) (tasks : List Task) :
    (w.lineUp tasks).weight ≤ w.weight + tasks.length := by
  have hw : (w.lineUp tasks).weight =
      6 * w.load + (w.lineUp tasks).awake.length + 2 * w.paused.length + w.fatigue := rfl
  have ha : (w.lineUp tasks).awake.length ≤ w.awake.length + tasks.length := by
    simp only [lineUp, List.length_append]
    exact Nat.add_le_add_left (List.length_filter_le _ _) _
  rw [hw, weight]
  omega

theorem total_hear (cs : List Connection) :
    total Connection.weight (cs.map Connection.hear) + (cs.filter Connection.isUnheard).length =
      total Connection.weight cs := by
  induction cs with
  | nil => rfl
  | cons c rest ih =>
    have := c.hear_weight
    simp only [List.map_cons, total_cons, List.filter_cons]
    split <;> simp_all <;> omega

/-- Hearing makes up for the turns that it gives rise to. -/
theorem hear_weight_le (w : Intake) :
    w.hear.weight + (w.connections.filter Connection.isUnheard).length ≤ w.weight := by
  have ht := total_hear w.connections
  have hm : (w.movableAmong ((w.connections.filter Connection.isUnheard).map Connection.hear)).length ≤
      (w.connections.filter Connection.isUnheard).length := by
    unfold movableAmong
    rw [List.length_map]
    exact Nat.le_trans (List.length_filter_le _ _) (by simp)
  have hl := lineUp_weight_le { w with connections := w.connections.map Connection.hear }
    (w.movableAmong ((w.connections.filter Connection.isUnheard).map Connection.hear))
  have hw : ({ w with connections := w.connections.map Connection.hear } : Intake).weight =
      6 * (total Connection.weight (w.connections.map Connection.hear) +
        total Arrival.weight w.backlog + w.acceptor.rank w.signals.burned) +
      w.awake.length + 2 * w.paused.length + w.fatigue := rfl
  refine Nat.le_trans (Nat.add_le_add_right hl _) ?_
  rw [hw, weight, load]
  omega

theorem endTurn_weight {w : Intake} (h : w.awake ≠ []) : w.endTurn.weight < w.weight := by
  unfold endTurn
  split
  · contradiction
  · rename_i task rest ha
    have hp : (if w.isExhausted then task :: w.paused else w.paused).length * 2 ≤
        2 * w.paused.length + w.fatigue := by
      unfold fatigue
      split
      · rw [List.length_cons]
        omega
      · omega
    have hw : w.weight = 6 * w.load + (rest.length + 1) + 2 * w.paused.length + w.fatigue := by
      rw [weight, ha, List.length_cons]
    dsimp only
    generalize (if w.isExhausted then task :: w.paused else w.paused) = paused at hp
    split
    · refine Nat.lt_of_le_of_lt (lineUp_weight_le _ paused) ?_
      refine Nat.lt_of_le_of_lt (Nat.add_le_add_right (Nat.le_trans (Nat.le_add_right _ _)
        (hear_weight_le _)) _) ?_
      have hv : ({ w with awake := rest, spent := 0, turns := 0, paused := [] } : Intake).weight =
          6 * w.load + rest.length + 2 * 0 + 0 := rfl
      rw [hv, hw]
      omega
    · have hv : ({ w with awake := rest, spent := 0, turns := w.turns + 1, paused } : Intake).weight =
          6 * w.load + rest.length + 2 * paused.length + 0 := rfl
      rw [hv, hw]
      omega

theorem step_weight {w v : Intake} (h : w.step = some v) : v.weight < w.weight := by
  unfold step at h
  split at h
  · rename_i task rest ha
    obtain rfl := Option.some.inj h
    cases hm : w.move task with
    | none => exact endTurn_weight (by simp [ha])
    | some next =>
      have := move_weight hm
      simp only [Option.getD_some]
      omega
  · split at h
    · rename_i hu
      obtain rfl := Option.some.inj h
      obtain ⟨c, hc, hu⟩ := List.any_eq_true.mp hu
      have := w.hear_weight_le
      have : 0 < (w.connections.filter Connection.isUnheard).length :=
        List.length_pos_of_mem (List.mem_filter.mpr ⟨hc, hu⟩)
      omega
    · obtain ⟨t, _, ht⟩ := List.exists_of_findSome?_eq_some h
      obtain ⟨next, hm, rfl⟩ := Option.map_eq_some_iff.mp ht
      have := move_weight hm
      have hw : ({ next with awake := t :: next.awake } : Intake).weight =
          6 * next.load + (next.awake.length + 1) + 2 * next.paused.length + next.fatigue := rfl
      rw [hw]
      rw [weight] at this
      omega

def restless : Restless Intake where
  step := step
  measure := weight
  decreases _ _ := step_weight

/-- Runs all tasks until none can move. -/
def settle (w : Intake) : Intake := restless.rest w

theorem exists_of_stepAmong {id : Nat} {signals : Signals} {sink : Sink} {left : Nat}
    {cs : List Connection} (h : (stepAmong id signals sink left cs).isSome) :
    ∃ c ∈ cs, c.id = id ∧ (c.step signals sink left).isSome := by
  induction cs with
  | nil => contradiction
  | cons c rest ih =>
    rw [stepAmong] at h
    split at h
    · exact ⟨c, List.mem_cons_self, ‹_›, by simpa using h⟩
    · obtain ⟨d, hd, hs⟩ := ih (by simpa using h)
      exact ⟨d, List.mem_cons_of_mem c hd, hs⟩

theorem mem_movable {w : Intake} {task : Task} (h : (w.move task).isSome) : task ∈ w.movable := by
  cases task with
  | acceptor =>
    have ha : w.stepAcceptor.isSome := h
    simp [movable, ha]
  | connection id =>
    obtain ⟨c, hc, rfl, hs⟩ := exists_of_stepAmong (by simpa [move, stepConnection] using h)
    simp only [movable, movableAmong, List.mem_append, List.mem_map, List.mem_filter]
    exact .inr ⟨c, ⟨hc, hs⟩, rfl⟩

/-- Only the tasks at hand can move, so no step means that no task moves. -/
theorem move_eq_none {w : Intake} (h : w.step = none) (task : Task) : w.move task = none := by
  have hall : ∀ t ∈ w.movable, w.move t = none := by
    unfold step at h
    split at h
    · contradiction
    · split at h
      · contradiction
      · simpa using h
  cases hm : w.move task with
  | none => rfl
  | some next =>
    have := hall task (mem_movable (by simp [hm]))
    simp [hm] at this

/-- What happens to an intake from outside. -/
inductive Event
  | connect (peer : Connection)
  | acceptError (error : IoError)
  | arrive (id : Nat) (read : Read)
  | turnFuse (burned : Bool)
  | letGoOfFuse
  | cancel
  | closeListener
  | closeSink
  | receive (count : Nat)
  deriving DecidableEq

/-- A read arrives at the connection numbered `id`, accepted or not. -/
def arriveAt (w : Intake) (id : Nat) (read : Read) : Intake :=
  let deliver (c : Connection) := if c.id = id then c.arrive read else c
  let arrived : Intake :=
    { w with
      connections := w.connections.map deliver
      backlog := w.backlog.map (Arrival.map deliver) }
  arrived.rouse

def enqueue (w : Intake) (arrival : Arrival) : Intake :=
  let queued : Intake := { w with backlog := w.backlog ++ [arrival] }
  queued.rouse

def turnFuse (w : Intake) (burned : Bool) : Intake × Option Bool :=
  let (signals, moved) := w.signals.turn burned
  ({ w.report (Signals.noticesOfTurn burned moved) with signals }.rouse, moved)

/-- Takes messages out of the sink. The senders that get a place by it line up in their order. -/
def receive (w : Intake) (count : Nat) : List Message × Intake :=
  let (messages, sink) := w.sink.receive count
  (messages, sink.granted.foldl (fun (w : Intake) id => w.wake (.connection id)) { w with sink })

def receiveUnbounded (w : Intake) : List Message × Intake :=
  let (messages, sink) := w.sink.receiveUnbounded
  (messages, { w with sink })

/-- What happens reaches the tasks that can move after it. -/
def occur (w : Intake) : Event → Intake
  | .connect c => w.enqueue (.connection c)
  | .acceptError e => w.enqueue (.failure e)
  | .arrive id read => w.arriveAt id read
  | .turnFuse burned => (w.turnFuse burned).1
  | .letGoOfFuse => { w with signals := w.signals.letGo }.rouse
  | .cancel => { w with signals := { w.signals with cancelled := true } }.rouse
  | .closeListener => { w with listenerClosed := true }.rouse
  | .closeSink => { w with sink := w.sink.close }.rouse
  | .receive count => (w.receive count).2

/-- Connections whose handler runs. -/
def openConnections (w : Intake) : Nat := (w.connections.filter fun c => !c.isEnded).length

/-- The notices since they were collected last. -/
def collect (w : Intake) : List Notice × Intake := (w.notices, { w with notices := [] })

end Intake

end FrameIntake
