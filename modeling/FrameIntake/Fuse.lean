/-!
A fuse is clear or burned. Turning it says whether it moved, which is when a notice is due.
-/

namespace FrameIntake

structure Fuse where
  burned : Bool := false
  deriving DecidableEq, Repr

namespace Fuse

/-- Puts the fuse into a position and tells whether it was in the other one. -/
def turn (f : Fuse) (burned : Bool) : Fuse × Bool :=
  (⟨burned⟩, f.burned != burned)

def burn (f : Fuse) : Fuse × Bool := f.turn true

def clear (f : Fuse) : Fuse × Bool := f.turn false

end Fuse

end FrameIntake
