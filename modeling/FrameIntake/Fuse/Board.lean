import FrameIntake.Signals

/-!
A fuse with everything that watches it: monitors, and tasks that wait for it to be in a position. A
waiting task looks only when it runs, so a change that is undone before that goes unseen.
-/

namespace FrameIntake.Fuse

/-- What a monitor shows: the fuse, or a fuse that is clear for ever. -/
inductive Monitor
  | attached
  | never
  deriving DecidableEq, Repr

structure Waiter where
  id : String
  monitor : Monitor
  /-- The position it waits for. -/
  burned : Bool
  deriving DecidableEq, Repr

/-- An attempt to use the board. `monitor` is the name of a monitor; a waiter without one waits through
the fuse itself. -/
inductive Action
  | turn (burned : Bool)
  | ask
  | attach (name : String)
  | attachNever (name : String)
  | copy (name monitor : String)
  | observe (monitor : String)
  | await (id : String) (monitor : Option String) (burned : Bool)
  | drop
  deriving DecidableEq, Repr

structure Board where
  signals : Signals := {}
  monitors : List (String × Monitor) := []
  waiting : List Waiter := []
  /-- The waiters that are done, in the order in which they were. An id is that of the last waiter it was
  given to. -/
  done : List String := []
  deriving DecidableEq, Repr

namespace Board

def burned (b : Board) : Bool := b.signals.burned

def shows (b : Board) : Monitor → Bool
  | .attached => b.burned
  | .never => false

def monitor? (b : Board) (name : Option String) : Option Monitor :=
  match name with
  | none => some .attached
  | some name => b.monitors.lookup name

/-- Carries out an action, and tells what it answers and what it gives notice of. -/
def act (b : Board) : Action → Board × Option Bool × List Notice
  | .turn burned =>
    let (signals, moved) := b.signals.turn burned
    ({ b with signals }, moved, Signals.noticesOfTurn burned moved)
  | .ask => (b, if b.signals.turnable then some b.burned else none, [])
  | .attach name => ({ b with monitors := (name, .attached) :: b.monitors }, none, [])
  | .attachNever name => ({ b with monitors := (name, .never) :: b.monitors }, none, [])
  | .copy name monitor =>
    let monitors := (b.monitors.lookup monitor).elim b.monitors fun m => (name, m) :: b.monitors
    ({ b with monitors }, none, [])
  | .observe monitor => (b, (b.monitors.lookup monitor).map b.shows, [])
  | .await id monitor burned =>
    match b.monitor? monitor with
    | none => (b, none, [])
    | some m =>
      let others := b.waiting.filter (·.id ≠ id)
      ({ b with waiting := others ++ [⟨id, m, burned⟩], done := b.done.filter (· ≠ id) }, none, [])
  | .drop => ({ b with signals := b.signals.letGo }, none, [])

/-- A waiter is through when its monitor shows what it waits for. -/
def isThrough (b : Board) (w : Waiter) : Bool := b.shows w.monitor == w.burned

/-- Runs all waiting tasks once. -/
def settle (b : Board) : Board :=
  { b with
    waiting := b.waiting.filter (!b.isThrough ·)
    done := b.done ++ (b.waiting.filter b.isThrough).map Waiter.id }

end Board

end FrameIntake.Fuse
