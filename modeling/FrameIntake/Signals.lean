import FrameIntake.Fuse
import FrameIntake.Notice

/-!
What every task of a consumer looks at before anything else: whether the consumer shuts down, and
whether the fuse is burned.
-/

namespace FrameIntake

structure Signals where
  cancelled : Bool := false
  fuse : Fuse := {}
  /-- Somebody can still turn the fuse. Without one it keeps its last position. -/
  turnable : Bool := true
  deriving DecidableEq, Repr

namespace Signals

def burned (s : Signals) : Bool := s.fuse.burned

/-- The outcome that the signals call for. -/
def stop? (s : Signals) : Option Outcome :=
  if s.cancelled then some .shutdown else if s.burned then some .fuseBurned else none

/-- Turns the fuse, if it can be turned, and tells whether it moved. -/
def turn (s : Signals) (burned : Bool) : Signals × Option Bool :=
  if s.turnable then
    let (fuse, moved) := s.fuse.turn burned
    ({ s with fuse }, some moved)
  else (s, none)

/-- The notices of a turn. -/
def noticesOfTurn (burned : Bool) (moved : Option Bool) : List Notice :=
  if moved = some true then [if burned then .fuseBurned else .fuseCleared] else []

/-- Without a fuse, or after its last holder let go of it. -/
def letGo (s : Signals) : Signals := { s with turnable := false }

end Signals

end FrameIntake
