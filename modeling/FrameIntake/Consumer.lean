import FrameIntake.Intake
import FrameIntake.Listener
import FrameIntake.Options.Basic

/-!
A consumer from its start to its end. It serves until it is told to stop, also when its acceptor stops
before that; then it cancels all handlers, closes the listener, waits for acceptor and handlers, and
gives up its address.
-/

namespace FrameIntake

inductive Stage
  /-- Waiting to be told to stop, or for the acceptor to stop by itself. -/
  | serving
  /-- The acceptor has stopped by itself; waiting to be told to stop. -/
  | lingering
  /-- Waiting for the acceptor. -/
  | joining
  /-- Waiting for the handlers. -/
  | draining
  | finished
  deriving DecidableEq, Repr

def Stage.rank : Stage → Nat
  | serving => 4
  | lingering => 3
  | joining => 2
  | draining => 1
  | finished => 0

/-- What a consumer looks at while it waits, besides its handlers. -/
inductive Awaited
  /-- That it is told to stop. -/
  | stop
  | acceptor
  deriving DecidableEq, Repr

/-- What a stage waits for, in the order in which the consumer looks at it. Being told to stop comes before
anything else. -/
def Stage.awaits : Stage → List Awaited
  | serving => [.stop, .acceptor]
  | lingering => [.stop]
  | joining => [.acceptor]
  | draining | finished => []

/-- Who hears that a consumer is ready. -/
inductive Audience
  | none
  | listening
  /-- Somebody wanted to know and went away. -/
  | gone
  deriving DecidableEq, Repr

structure Consumer where
  config : Config
  listener : Listener
  host : Host
  intake : Intake
  stage : Stage := .serving
  /-- The consumer was told to stop. -/
  stopping : Bool := false

namespace Consumer

/-- The address that the options ask for, as log records show it. -/
def address (c : Consumer) : String := c.config.address.display

/-- A consumer that has just begun to serve on a listener. -/
def launch (config : Config) (listener : Listener) (host : Host) (signals : Signals) (sink : Sink)
    (audience : Audience) (notices : List Notice) : Consumer :=
  let started : List Notice :=
    [.consumerStarted config.address.display config.partitioner.kind.name config.stream] ++
      (if audience = .gone then [.readinessLost] else [])
  { config, listener, host
    intake :=
      { localAddress := some listener.endpoint.display, signals, sink
        notices := notices ++ started } }

def report (c : Consumer) (notices : List Notice) : Consumer :=
  { c with intake := c.intake.report notices }

/-- Cancels all handlers and closes the listener to the acceptor. -/
def shutDown (c : Consumer) (next : Stage) : Consumer :=
  { c with
    stage := next
    intake :=
      { c.intake with
        signals := { c.intake.signals with cancelled := true }
        listenerClosed := true } }

/-- Gives up the address. -/
def finish (c : Consumer) : Consumer :=
  let (host, notices) := c.listener.release c.host
  let done : Consumer := { c with host, stage := .finished }
  done.report (notices ++ [.consumerStopped c.address])

/-- Acceptor and handlers are over. -/
def isDrained (c : Consumer) : Bool :=
  c.intake.acceptor = .stopped && c.intake.connections.all Connection.isEnded

def isDone (c : Consumer) : Awaited → Bool
  | .stop => c.stopping
  | .acceptor => c.intake.acceptor = .stopped

/-- The first of what the consumer waits for that is done. -/
def completed? (c : Consumer) : Option Awaited := c.stage.awaits.find? c.isDone

/-- Goes on to the next stage, because `awaited` is done. -/
def resume (c : Consumer) : Awaited → Consumer
  | .stop => c.shutDown (if c.stage = .serving then .joining else .draining)
  | .acceptor =>
    if c.stage = .serving then { c with stage := .lingering }.report [.acceptorStoppedEarly c.address]
    else { c with stage := .draining }

/-- One step from stage to stage. -/
def advance (c : Consumer) : Option Consumer :=
  match c.stage with
  | .draining => if c.isDrained then some c.finish else none
  | _ => c.completed?.map c.resume

theorem advance_serving {c : Consumer} (h : c.stage = .serving) :
    c.advance =
      if c.stopping then some (c.shutDown .joining)
      else if c.intake.acceptor = .stopped then
        some ({ c with stage := .lingering }.report [.acceptorStoppedEarly c.address])
      else none := by
  simp only [advance, h, completed?, Stage.awaits, List.find?, isDone]
  by_cases hs : c.stopping
  · simp [hs, resume, h]
  · by_cases ha : c.intake.acceptor = .stopped <;> simp [hs, ha, resume, h]

theorem advance_lingering {c : Consumer} (h : c.stage = .lingering) :
    c.advance = if c.stopping then some (c.shutDown .draining) else none := by
  simp only [advance, h, completed?, Stage.awaits, List.find?, isDone]
  cases c.stopping <;> simp [resume, h]

theorem advance_joining {c : Consumer} (h : c.stage = .joining) :
    c.advance = if c.intake.acceptor = .stopped then some { c with stage := .draining } else none := by
  simp only [advance, h, completed?, Stage.awaits, List.find?, isDone]
  by_cases ha : c.intake.acceptor = .stopped <;> simp [ha, resume, h]

theorem advance_draining {c : Consumer} (h : c.stage = .draining) :
    c.advance = if c.isDrained then some c.finish else none := by
  simp only [advance, h]

theorem advance_finished {c : Consumer} (h : c.stage = .finished) : c.advance = none := by
  simp [advance, h, completed?, Stage.awaits]

/-- Everything that the consumer itself can do in a step. -/
inductive Advances (c : Consumer) : Consumer → Prop
  | told (serving : c.stage = .serving) (stopping : c.stopping = true) : Advances c (c.shutDown .joining)
  | left (serving : c.stage = .serving) (waiting : c.stopping = false)
      (stopped : c.intake.acceptor = .stopped) :
      Advances c ({ c with stage := .lingering }.report [.acceptorStoppedEarly c.address])
  | toldLate (lingering : c.stage = .lingering) (stopping : c.stopping = true) :
      Advances c (c.shutDown .draining)
  | joined (joining : c.stage = .joining) (stopped : c.intake.acceptor = .stopped) :
      Advances c { c with stage := .draining }
  | drained (draining : c.stage = .draining) (drained : c.isDrained = true) : Advances c c.finish

theorem advance_advances {c d : Consumer} (h : c.advance = some d) : c.Advances d := by
  cases hs : c.stage with
  | serving =>
    rw [advance_serving hs] at h
    split at h
    · obtain rfl := Option.some.inj h
      exact .told hs ‹_›
    · split at h
      · rename_i hstop ha
        obtain rfl := Option.some.inj h
        exact .left hs (Bool.not_eq_true _ ▸ hstop) ha
      · contradiction
  | lingering =>
    rw [advance_lingering hs] at h
    split at h
    · obtain rfl := Option.some.inj h
      exact .toldLate hs ‹_›
    · contradiction
  | joining =>
    rw [advance_joining hs] at h
    split at h
    · obtain rfl := Option.some.inj h
      exact .joined hs ‹_›
    · contradiction
  | draining =>
    rw [advance_draining hs] at h
    split at h
    · obtain rfl := Option.some.inj h
      exact .drained hs ‹_›
    · contradiction
  | finished =>
    rw [advance_finished hs] at h
    contradiction

inductive Actor
  | main
  | task (task : Task)
  deriving DecidableEq, Repr

def move (c : Consumer) : Actor → Option Consumer
  | .main => c.advance
  | .task t => (c.intake.move t).map fun intake => { c with intake }

def step (c : Consumer) : Option Consumer :=
  match c.advance with
  | some next => some next
  | none => c.intake.step.map fun intake => { c with intake }

def weight (c : Consumer) : Nat := c.stage.rank + c.intake.weight

/-- A later stage weighs less, as long as the intake weighs the same. -/
theorem weight_lt_of_rank {c d : Consumer} (hi : d.intake.weight = c.intake.weight)
    (hr : d.stage.rank < c.stage.rank) : d.weight < c.weight := by
  unfold weight
  omega

theorem advance_weight {c d : Consumer} (h : c.advance = some d) : d.weight < c.weight := by
  cases advance_advances h with
  | told serving =>
    exact weight_lt_of_rank rfl (serving ▸ (by decide : Stage.joining.rank < Stage.serving.rank))
  | left serving =>
    exact weight_lt_of_rank rfl (serving ▸ (by decide : Stage.lingering.rank < Stage.serving.rank))
  | toldLate lingering =>
    exact weight_lt_of_rank rfl (lingering ▸ (by decide : Stage.draining.rank < Stage.lingering.rank))
  | joined joining =>
    exact weight_lt_of_rank rfl (joining ▸ (by decide : Stage.draining.rank < Stage.joining.rank))
  | drained draining =>
    exact weight_lt_of_rank rfl (draining ▸ (by decide : Stage.finished.rank < Stage.draining.rank))

def restless : Restless Consumer where
  step := step
  measure := weight
  decreases c d h := by
    unfold step at h
    split at h
    · obtain rfl := Option.some.inj h
      exact advance_weight ‹_›
    · obtain ⟨w, hw, rfl⟩ := Option.map_eq_some_iff.mp h
      have := Intake.restless.decreases _ _ hw
      simp only [weight]
      exact Nat.add_lt_add_left this _

/-- Runs the consumer until nothing in it moves. -/
def settle (c : Consumer) : Consumer := restless.rest c

def stop (c : Consumer) : Consumer := { c with stopping := true }

def isFinished (c : Consumer) : Bool := c.stage = .finished

def onIntake (c : Consumer) (event : Intake.Event) : Consumer :=
  { c with intake := c.intake.occur event }

def turnFuse (c : Consumer) (burned : Bool) : Consumer × Option Bool :=
  let (intake, moved) := c.intake.turnFuse burned
  ({ c with intake }, moved)

def receive (c : Consumer) (n : Nat) : List Message × Consumer :=
  let (messages, intake) := c.intake.receive n
  (messages, { c with intake })

def receiveUnbounded (c : Consumer) : List Message × Consumer :=
  let (messages, intake) := c.intake.receiveUnbounded
  (messages, { c with intake })

/-- The notices since they were collected last. -/
def collect (c : Consumer) : List Notice × Consumer :=
  let (notices, intake) := c.intake.collect
  (notices, { c with intake })

/-- The consumer's side of a connection is closed: its handler is over, or nobody can accept it. -/
def hasClosed (c : Consumer) (id : Nat) : Bool :=
  c.isFinished || c.intake.connections.any fun k => k.id = id && k.isEnded

end Consumer

end FrameIntake
