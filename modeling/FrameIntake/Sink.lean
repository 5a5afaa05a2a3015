import FrameIntake.Message

/-!
Where messages go: a queue that a receiver empties. A bounded queue makes senders wait; they get their
places in the order in which they asked.
-/

namespace FrameIntake

/-- The messages over which a faulty sink breaks down, and what it tells then. -/
structure Fault where
  isOver : Message → Bool
  message : Message → String

namespace Fault

/-- A sink that breaks down over every message that holds an exclamation mark. -/
def overMark (message : Message → String) : Fault :=
  { isOver := fun m => m.payload.contains 0x21, message }

def text : Fault := overMark fun _ => "sink boom"

/-- Tells the size of the message. -/
def counted : Fault := overMark fun m => s!"boom on {m.payload.length} bytes"

/-- Leaves nothing that could be shown as a text. -/
def mute : Fault := overMark fun _ => "Any \x7b .. \x7d"

end Fault

/-- A message in the queue, with the number of its sender. -/
structure Delivery where
  sender : Nat
  message : Message
  deriving DecidableEq, Repr

structure Sink where
  /-- Free places in the queue; nothing stands for no bound. -/
  free : Option Nat := none
  fault : Option Fault := none
  /-- What was sent and not received yet, the latest in front. -/
  sent : List Delivery := []
  /-- The senders that wait for a place, first come first served. -/
  waiting : List Nat := []
  closed : Bool := false

/-- What became of an attempt to send. -/
inductive Offer
  | accepted
  | waits
  | refused
  | panicked (what : String)
  deriving DecidableEq, Repr

namespace Sink

def isBounded (s : Sink) : Bool := s.free.isSome

def closedMessage : String := "message sink closed"

/-- How the sink breaks down over `m`, if it does. -/
def panic? (s : Sink) (m : Message) : Option String :=
  s.fault.bind fun fault => if fault.isOver m then some (fault.message m) else none

/-- The first waiting senders, for whom there are places now. -/
def granted (s : Sink) : List Nat :=
  match s.free with
  | none => s.waiting
  | some places => s.waiting.take places

/-- The sink with `sender` in the line of those that wait. -/
def lineUp (s : Sink) (sender : Nat) : Sink :=
  if sender ∈ s.waiting then s else { s with waiting := s.waiting ++ [sender] }

/-- Takes `sender` out of the line; a place that it was due goes to the next. -/
def leave (s : Sink) (sender : Nat) : Sink :=
  { s with waiting := s.waiting.erase sender }

/-- Sends `m`, or lets the sender wait in line. -/
def offer (s : Sink) (sender : Nat) (m : Message) : Offer × Sink :=
  match s.panic? m with
  | some what => (.panicked what, s)
  | none =>
    if s.closed then (.refused, s.leave sender)
    else
      let lined := s.lineUp sender
      if sender ∈ lined.granted then
        (.accepted,
          { lined.leave sender with free := s.free.map (· - 1), sent := ⟨sender, m⟩ :: s.sent })
      else (.waits, lined)

/-- The messages in the queue, in the order in which they are received. -/
def queue (s : Sink) : List Message := s.sent.reverse.map Delivery.message

/-- Takes up to `n` messages out of the queue, each of which leaves a free place. -/
def receive (s : Sink) (n : Nat) : List Message × Sink :=
  let taken := s.queue.take n
  (taken,
    { s with
      free := s.free.map (· + taken.length)
      sent := s.sent.take (s.sent.length - taken.length) })

/-- Takes everything out of an unbounded queue, whose receiver keeps up with it. -/
def receiveUnbounded (s : Sink) : List Message × Sink :=
  if s.isBounded then ([], s) else (s.queue, { s with sent := [] })

/-- Some message of `sender` is in the queue. -/
def holdsFrom (s : Sink) (sender : Nat) : Bool := s.sent.any (·.sender = sender)

/-- Closes the receiving end. What is queued is lost. -/
def close (s : Sink) : Sink := { s with sent := [], closed := true }

/-- Receiving takes from the front of the queue. -/
theorem queue_receive (s : Sink) (n : Nat) :
    (s.receive n).1 = s.queue.take n ∧ (s.receive n).2.queue = s.queue.drop n := by
  refine ⟨rfl, ?_⟩
  simp only [receive, queue, List.reverse_take, List.map_drop, List.length_take, List.length_map,
    List.length_reverse]
  have h : s.sent.length - (s.sent.length - min n s.sent.length) = min n s.sent.length := by omega
  rw [h]
  by_cases hn : n ≤ s.sent.length
  · rw [Nat.min_eq_left hn]
  · rw [Nat.min_eq_right (by omega), List.drop_eq_nil_of_le (by simp),
      List.drop_eq_nil_of_le (by simp; omega)]

end Sink

end FrameIntake
