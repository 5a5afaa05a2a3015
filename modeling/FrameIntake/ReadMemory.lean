/-!
The memory that a stream is read into. From front to back it holds places from which frames were taken,
the bytes that are buffered, and free room. Frames stay in the memory that they were read into for as
long as somebody holds them, so a reader that runs out of room may have to move (`makeRoom`); there is
always room after that (`room_makeRoom`).
-/

namespace FrameIntake

structure ReadMemory where
  /-- Places in front, from which frames were taken. -/
  vacated : Nat := 0
  /-- Free places behind the buffered bytes. -/
  room : Nat := 8192
  deriving DecidableEq, Repr

namespace ReadMemory

/-- The places of new memory. -/
def freshSize : Nat := 8192

/-- Bytes are read into the free room. -/
def fill (m : ReadMemory) (count : Nat) : ReadMemory := { m with room := m.room - count }

/-- A frame is taken from the front of the buffered bytes. -/
def vacate (m : ReadMemory) (count : Nat) : ReadMemory := { m with vacated := m.vacated + count }

/-- All buffered bytes are dropped. -/
def discard (m : ReadMemory) (buffered : Nat) : ReadMemory := { m with room := m.room + buffered }

/-- Makes room where there is none. Memory with frames that are still `held` is left to them, for new
memory. If nobody holds them, the buffered bytes move to the front, as long as that vacates as many
places as it moves bytes. Otherwise the memory doubles. -/
def makeRoom (m : ReadMemory) (buffered : Nat) (held : Bool) : ReadMemory :=
  if 0 < m.room then m
  else if m.vacated = 0 then { m with room := max 1 buffered }
  else if held then { room := max freshSize (buffered + 1) - buffered }
  else if buffered ≤ m.vacated then { room := m.vacated }
  else { m with room := m.vacated + buffered }

theorem room_makeRoom (m : ReadMemory) (buffered : Nat) (held : Bool) :
    0 < (m.makeRoom buffered held).room := by
  unfold makeRoom
  split
  · assumption
  · repeat' split
    all_goals
      dsimp only
      omega

end ReadMemory

end FrameIntake
