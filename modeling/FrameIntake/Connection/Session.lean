import FrameIntake.Connection
import FrameIntake.Rest

/-!
One connection by itself: its handler, the signals it looks at and the sink it sends to. No other task
waits for the handler's turn to end, so it never runs out of effort.
-/

namespace FrameIntake

structure Session where
  connection : Connection
  signals : Signals := {}
  sink : Sink := {}
  metrics : Metrics := {}
  /-- Notices that nobody has collected yet. -/
  notices : List Notice := []

namespace Session

def step (s : Session) : Option Session :=
  (s.connection.step s.signals s.sink turnLimit).map fun h =>
    { s with
      connection := h.connection
      sink := h.sink
      metrics := s.metrics.recordAll h.metrics
      notices := s.notices ++ h.notices }

def restless : Restless Session where
  step := step
  measure s := s.connection.weight
  decreases s t h := by
    obtain ⟨handled, hs, rfl⟩ := Option.map_eq_some_iff.mp h
    exact Connection.step_weight hs

/-- Runs the handler until it waits or has ended. -/
def settle (s : Session) : Session := restless.rest s

def arrive (s : Session) (read : Read) : Session :=
  { s with connection := s.connection.arrive read }

def turnFuse (s : Session) (burned : Bool) : Session :=
  let (signals, moved) := s.signals.turn burned
  { s with signals, notices := s.notices ++ Signals.noticesOfTurn burned moved }

def letGoOfFuse (s : Session) : Session := { s with signals := s.signals.letGo }

def cancel (s : Session) : Session := { s with signals := { s.signals with cancelled := true } }

def closeSink (s : Session) : Session := { s with sink := s.sink.close }

def receive (s : Session) (n : Nat) : List Message × Session :=
  let (messages, sink) := s.sink.receive n
  (messages, { s with sink })

def receiveUnbounded (s : Session) : List Message × Session :=
  let (messages, sink) := s.sink.receiveUnbounded
  (messages, { s with sink })

/-- The notices since they were collected last. -/
def collect (s : Session) : List Notice × Session := (s.notices, { s with notices := [] })

end Session

end FrameIntake
