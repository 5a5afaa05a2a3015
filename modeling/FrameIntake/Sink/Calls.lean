import FrameIntake.Sink

/-!
Calls to one sink, each from a task of its own. A call that waits runs again whenever something may have
made room.
-/

namespace FrameIntake

inductive CallState
  | unstarted
  | waiting
  | accepted
  | refused
  | panicked
  deriving DecidableEq, Repr

def CallState.isOver : CallState → Bool
  | unstarted | waiting => false
  | _ => true

structure Call where
  sender : Nat
  message : Message
  state : CallState := .unstarted
  deriving DecidableEq, Repr

/-- A sink with the calls that nobody has seen the end of. -/
structure Calls where
  sink : Sink
  calls : List Call := []
  /-- The number of the next sender. -/
  next : Nat := 0

namespace Calls

def call (c : Calls) (m : Message) : Calls :=
  { c with calls := c.calls ++ [⟨c.next, m, .unstarted⟩], next := c.next + 1 }

def receive (c : Calls) (n : Nat) : List Message × Calls :=
  let (messages, sink) := c.sink.receive n
  (messages, { c with sink })

def close (c : Calls) : Calls := { c with sink := c.sink.close }

/-- Runs a call that is not over. -/
def run (sink : Sink) (call : Call) : Sink × Call :=
  if call.state.isOver then (sink, call)
  else
    match sink.offer call.sender call.message with
    | (.accepted, sink) => (sink, { call with state := .accepted })
    | (.waits, sink) => (sink, { call with state := .waiting })
    | (.refused, sink) => (sink, { call with state := .refused })
    | (.panicked _, sink) => (sink, { call with state := .panicked })

def runAll (sink : Sink) : List Call → Sink × List Call
  | [] => (sink, [])
  | call :: rest =>
    let (sink, call) := run sink call
    let (sink, rest) := runAll sink rest
    (sink, call :: rest)

/-- Runs every call once. A call that is over makes no room, so they are at rest after that. -/
def settle (c : Calls) : Calls :=
  let (sink, calls) := runAll c.sink c.calls
  { c with sink, calls }

/-- Where the calls stand. Those that are over are not shown again. -/
def collect (c : Calls) : List CallState × Calls :=
  (c.calls.map Call.state, { c with calls := c.calls.filter (!·.state.isOver) })

end Calls

end FrameIntake
