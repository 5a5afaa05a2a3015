import FrameIntake.MessageReader
import FrameIntake.Metrics
import FrameIntake.Signals

/-!
The handler of one connection. It alternates between two waits, one for the next message and one for
a place in the sink. In either it looks at the signals first, at the shutdown before the fuse. Some of its
steps take effort, of which a turn of the handler has no more than `turnLimit`.
-/

namespace FrameIntake

inductive Ending
  | outcome (outcome : Outcome)
  | panicked (what : String)
  deriving DecidableEq, Repr

inductive Phase
  | unstarted
  | reading
  /-- Has a message that left the buffer and that the sink has to take. `inLine` once it waits there. -/
  | routing (message : Message) (inLine : Bool)
  | ended (ending : Ending)
  deriving DecidableEq, Repr

/-- The most effort of one turn. -/
def turnLimit : Nat := 128

/-- How a connection hands out what has arrived. -/
inductive Source
  /-- Event by event, as it arrived. -/
  | events
  /-- As one stream: a read takes all bytes that are there, once the handler has `heard` of any. -/
  | stream (heard : Bool)
  deriving DecidableEq, Repr

structure Connection where
  id : Nat
  peer : String
  reader : MessageReader
  source : Source := .events
  /-- What has arrived and was not read yet. -/
  arrived : List Read := []
  phase : Phase := .unstarted
  /-- In its present wait the handler has found out that nobody can turn the fuse. -/
  fuseGivenUp : Bool := false
  deriving DecidableEq, Repr

/-- What one step of a handler does. -/
structure Handled where
  connection : Connection
  sink : Sink
  /-- One for a read from a stream, one for a place in a bounded sink, and one for finding out that
  nobody can turn the fuse. -/
  effort : Nat := 0
  notices : List Notice := []
  metrics : List Metric := []

namespace Connection

def start (id : Nat) (peer : String) (partitioner : Partitioner) (stream : String) : Connection :=
  { id, peer, reader := .start partitioner stream }

def isEnded (c : Connection) : Bool :=
  match c.phase with
  | .ended _ => true
  | _ => false

def isRunning (c : Connection) : Bool :=
  match c.phase with
  | .unstarted | .ended _ => false
  | _ => true

/-- Bytes that have arrived and were not read. -/
def unread (c : Connection) : Nat := total Read.size c.arrived

def arrive (c : Connection) (read : Read) : Connection :=
  match c.source with
  | .events => { c with arrived := c.arrived ++ [read] }
  | .stream _ => { c with arrived := Read.joinTo c.arrived read }

/-- The handler hears that something has arrived. -/
def hear (c : Connection) : Connection :=
  match c.source with
  | .events => c
  | .stream _ => { c with source := .stream true }

def isUnheard (c : Connection) : Bool := !c.isEnded && c.source = .stream false

/-- The effort that it takes to accept the connection. -/
def toll (c : Connection) : Nat :=
  match c.source with
  | .events => 0
  | .stream _ => 1

/-- What has arrived and can be read with the effort that is `left`. -/
def within (c : Connection) (left : Nat) : List Read :=
  match c.source with
  | .events => c.arrived
  | .stream heard => if heard && 0 < left then c.arrived else []

/-- What has arrived and has to wait. -/
def beyond (c : Connection) (left : Nat) : List Read := c.arrived.drop (c.within left).length

def finish (c : Connection) (outcome : Outcome) : Connection :=
  { c with phase := .ended (.outcome outcome) }

/-- Ends on a signal. What was read and belongs to no message is dropped, and a place in the sink's
line is given up. -/
def interrupt (c : Connection) (sink : Sink) (outcome : Outcome) : Handled :=
  { connection := c.finish outcome
    sink := sink.leave c.id
    notices :=
      if c.reader.buffered = 0 then []
      else [.bytesDiscarded c.peer c.reader.buffered outcome] }

/-- Ends on an error of the stream. A read error is worth a notice only while nothing shuts down. -/
def fail (c : Connection) (signals : Signals) (sink : Sink) (e : StreamError) : Handled :=
  match e with
  | .trailing bytes =>
    { connection := c.finish .peerClosed, sink
      notices := [.frameIncomplete c.peer bytes]
      metrics := [.error .trailingData] }
  | .framing _ =>
    { connection := c.finish .malformed, sink
      notices := [.frameMalformed c.peer e]
      metrics := [.error .framing] }
  | .io _ =>
    { connection := c.finish .readError, sink
      notices := if signals.cancelled then [] else [.readFailed c.peer e]
      metrics := [.error .io] }

/-- One look at the source. Nothing moves if there is nothing to read, no message was buffered and there
is room to read. -/
def read (c : Connection) (signals : Signals) (sink : Sink) (left : Nat) : Option Handled :=
  let (item, reader, rest) := c.reader.poll .waits (sink.holdsFrom c.id) (c.within left)
  let next := { c with reader, arrived := rest ++ c.beyond left }
  let effort := match c.source with
    | .events => 0
    | .stream _ => reader.reads - c.reader.reads
  match item with
  | .message m =>
    some { connection := { next with phase := .routing m false, fuseGivenUp := false }, sink, effort }
  | .ended => some { connection := next.finish .peerClosed, sink }
  | .error e => some (next.fail signals sink e)
  | .pending =>
    if (c.within left).isEmpty && 0 < c.reader.memory.room then none
    else some { connection := next, sink, effort }

/-- One look at the sink. Nothing moves if the handler already waits there, or has no effort left for a
place. -/
def route (c : Connection) (sink : Sink) (m : Message) (inLine : Bool) (left : Nat) : Option Handled :=
  if sink.isBounded && left = 0 && (sink.panic? m).isNone then none
  else
    match sink.offer c.id m with
    | (.accepted, sink) =>
      some
        { connection := { c with phase := .reading, fuseGivenUp := false }, sink
          effort := if sink.isBounded then 1 else 0
          metrics := [.messageRouted] }
    | (.refused, sink) =>
      some
        { connection := c.finish .sinkClosed, sink
          notices := [.sinkRefused c.peer]
          metrics := [.error .sink] }
    | (.panicked what, sink) =>
      some { connection := { c with phase := .ended (.panicked what) }, sink }
    | (.waits, sink) =>
      if inLine then none else some { connection := { c with phase := .routing m true }, sink }

/-- A look at the signals and then `move`, the look at what the handler waits for. Effort that is `left`
goes into finding out that nobody can turn the fuse, once in every wait. -/
def watch (c : Connection) (signals : Signals) (sink : Sink) (left : Nat) (move : Option Handled) :
    Option Handled :=
  match signals.stop? with
  | some outcome => some (c.interrupt sink outcome)
  | none =>
    if !signals.turnable && !c.fuseGivenUp && 0 < left then
      some { connection := { c with fuseGivenUp := true }, sink, effort := 1 }
    else move

/-- One step of the handler with the effort that is `left`, or nothing while it waits and once it has
ended. -/
def step (c : Connection) (signals : Signals) (sink : Sink) (left : Nat) : Option Handled :=
  match c.phase with
  | .unstarted =>
    some
      { connection := { c with phase := .reading }, sink
        notices := [.connectionOpened c.peer c.reader.stream] }
  | .reading => c.watch signals sink left (c.read signals sink left)
  | .routing m inLine => c.watch signals sink left (c.route sink m inLine left)
  | .ended _ => none

/-- What the handler has before it: its bytes and reads, and making room if it has none. -/
def load (c : Connection) : Nat :=
  2 * c.reader.holding c.arrived + if c.reader.memory.room = 0 then 1 else 0

/-- Gets smaller with everything that the handler does but finding out: a message takes bytes out of the
load, and its way to the sink takes at most two steps more. -/
def path (c : Connection) : Nat :=
  match c.phase with
  | .unstarted => 3 * c.load + 4
  | .reading => 3 * c.load + 1
  | .routing _ false => 3 * c.load + 3
  | .routing _ true => 3 * c.load + 2
  | .ended _ => 0

/-- What the handler has to find out. -/
def unknowns (c : Connection) : Nat :=
  (if c.fuseGivenUp then 0 else 1) + if c.source = .stream false then 1 else 0

/-- Gets smaller with every step. -/
def weight (c : Connection) : Nat := if c.isEnded then 0 else 2 * c.path + c.unknowns

theorem weight_of_ended {c : Connection} (h : c.isEnded) : c.weight = 0 := if_pos h

theorem path_pos {c : Connection} (h : c.isEnded = false) : 0 < c.path := by
  unfold isEnded at h
  unfold path
  split at h
  · contradiction
  · split <;> simp_all

theorem weight_of_not_ended {c : Connection} (h : c.isEnded = false) :
    c.weight = 2 * c.path + c.unknowns := by
  rw [weight, h, if_neg Bool.false_ne_true]

theorem hear_weight (c : Connection) :
    c.hear.weight + (if c.isUnheard then 1 else 0) = c.weight := by
  have hp : c.hear.path = c.path := by unfold hear; split <;> rfl
  have he : c.hear.isEnded = c.isEnded := by unfold hear; split <;> rfl
  have hu : c.hear.unknowns + (if c.source = .stream false then 1 else 0) = c.unknowns := by
    unfold hear unknowns
    split <;> simp_all
  cases h : c.isEnded with
  | true => simp [weight, isUnheard, he, h]
  | false =>
    rw [weight_of_not_ended h, weight_of_not_ended (he.trans h), hp, ← hu]
    simp [isUnheard, h, Nat.add_assoc]

theorem weight_lt_of_ended {c d : Connection} (h : c.isEnded = false) (hd : d.isEnded) :
    d.weight < c.weight := by
  have := path_pos h
  rw [weight_of_ended hd, weight_of_not_ended h]
  omega

/-- A step may lose what a wait found out about the fuse. -/
theorem weight_lt_of_path {c d : Connection} (h : c.isEnded = false) (hp : d.path < c.path)
    (hs : d.source = c.source) : d.weight < c.weight := by
  have hu : d.unknowns ≤ c.unknowns + 1 := by
    unfold unknowns
    rw [hs]
    split <;> split <;> omega
  have : d.weight ≤ 2 * d.path + d.unknowns := by
    unfold weight
    split <;> omega
  rw [weight_of_not_ended h]
  omega

theorem within_append_beyond (c : Connection) (left : Nat) :
    c.within left ++ c.beyond left = c.arrived := by
  unfold beyond within
  split
  · simp
  · split <;> simp

theorem read_weight {c : Connection} {signals : Signals} {sink : Sink} {left : Nat} {h : Handled}
    (reading : c.phase = .reading) (hs : c.read signals sink left = some h) :
    h.connection.weight < c.weight := by
  have hc : c.isEnded = false := by simp [isEnded, reading]
  have hpath : c.path = 3 * c.load + 1 := by simp [path, reading]
  have hsplit : c.reader.holding c.arrived =
      c.reader.holding (c.within left) + total Read.size (c.beyond left) + (c.beyond left).length := by
    rw [← within_append_beyond c left]
    simp only [MessageReader.holding, total_append, List.length_append]
    omega
  unfold read at hs
  generalize hp : c.reader.poll .waits (sink.holdsFrom c.id) (c.within left) = p at hs
  obtain ⟨item, reader, rest⟩ := p
  obtain ⟨hl, hm, hw⟩ := MessageReader.poll_holding hp
  have hrest : reader.holding (rest ++ c.beyond left) =
      reader.holding rest + total Read.size (c.beyond left) + (c.beyond left).length := by
    simp only [MessageReader.holding, total_append, List.length_append]
    omega
  cases item with
  | message m =>
    have := hm ⟨m, rfl⟩
    obtain rfl := Option.some.inj hs
    refine weight_lt_of_path hc ?_ rfl
    rw [hpath]
    simp only [path, load]
    split <;> omega
  | error e =>
    obtain rfl := Option.some.inj hs
    exact weight_lt_of_ended hc (by cases e <;> rfl)
  | pending =>
    obtain ⟨hroom, hlt⟩ := hw rfl
    simp only at hs
    split at hs
    · contradiction
    · rename_i hn
      obtain rfl := Option.some.inj hs
      refine weight_lt_of_path hc ?_ rfl
      rw [hpath]
      simp only [path, load, reading, Nat.ne_of_gt hroom, if_false]
      by_cases he : c.within left = []
      · have hz : c.reader.memory.room = 0 := by simpa [he] using hn
        simp only [hz, if_true]
        omega
      · have := hlt he
        omega
  | ended =>
    obtain rfl := Option.some.inj hs
    exact weight_lt_of_ended hc rfl

theorem route_weight {c : Connection} {sink : Sink} {m : Message} {inLine : Bool} {left : Nat}
    {h : Handled} (routing : c.phase = .routing m inLine) (hs : c.route sink m inLine left = some h) :
    h.connection.weight < c.weight := by
  have hc : c.isEnded = false := by simp [isEnded, routing]
  have hpath : 3 * c.load + 2 ≤ c.path := by cases inLine <;> simp [path, routing]
  unfold route at hs
  split at hs
  · contradiction
  · split at hs
    · obtain rfl := Option.some.inj hs
      refine weight_lt_of_path hc ?_ rfl
      simp only [path, load] at *
      omega
    · obtain rfl := Option.some.inj hs
      exact weight_lt_of_ended hc rfl
    · obtain rfl := Option.some.inj hs
      exact weight_lt_of_ended hc rfl
    · cases inLine with
      | true => simp at hs
      | false =>
        simp only [Bool.false_eq_true, if_false, Option.some.injEq] at hs
        subst hs
        refine weight_lt_of_path hc ?_ rfl
        simp only [path, load, routing]
        omega

theorem watch_weight {c : Connection} {signals : Signals} {sink : Sink} {left : Nat}
    {move : Option Handled} {h : Handled} (hc : c.isEnded = false)
    (hm : ∀ g, move = some g → g.connection.weight < c.weight)
    (hs : c.watch signals sink left move = some h) : h.connection.weight < c.weight := by
  unfold watch at hs
  split at hs
  · obtain rfl := Option.some.inj hs
    exact weight_lt_of_ended hc rfl
  · split at hs
    · rename_i hf
      obtain rfl := Option.some.inj hs
      have hg : c.fuseGivenUp = false := by simp_all
      have he : ({ c with fuseGivenUp := true } : Connection).isEnded = false := hc
      have hp : ({ c with fuseGivenUp := true } : Connection).path = c.path := rfl
      simp only [weight, hc, he, hp, unknowns, hg]
      simp
    · exact hm h hs

theorem step_weight {c : Connection} {signals : Signals} {sink : Sink} {left : Nat} {h : Handled}
    (hs : c.step signals sink left = some h) : h.connection.weight < c.weight := by
  unfold step at hs
  split at hs
  · rename_i hp
    obtain rfl := Option.some.inj hs
    refine weight_lt_of_path (by simp [isEnded, hp]) ?_ rfl
    simp only [path, load, hp]
    omega
  · rename_i hp
    exact watch_weight (by simp [isEnded, hp]) (fun _ => read_weight hp) hs
  · rename_i m inLine hp
    exact watch_weight (by simp [isEnded, hp]) (fun _ => route_weight hp) hs
  · contradiction

end Connection

end FrameIntake
