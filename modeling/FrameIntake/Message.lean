import FrameIntake.Framing.Verdict
import FrameIntake.Framing.LengthPrefix
import FrameIntake.IoError

/-!
Messages, and what can go wrong on the way to one.
-/

namespace FrameIntake

/-- All bytes of one frame, with the routing key of the consumer that received it. -/
structure Message where
  payload : Bytes
  stream : String
  deriving DecidableEq, Repr

inductive StreamError
  | framing (error : FramingError)
  /-- The stream ended inside a frame, of which `bytes` bytes were dropped. -/
  | trailing (bytes : Nat)
  | io (error : IoError)
  deriving DecidableEq, Repr

namespace StreamError

def trailingMessage (bytes : Nat) : String :=
  s!"stream ended with {bytes} bytes of an incomplete frame"

def message : StreamError → String
  | framing e => s!"framing error: {e.message}"
  | trailing bytes => s!"EOF: {trailingMessage bytes}"
  | io e => s!"I/O error: {e.message}"

def category : StreamError → String
  | framing _ => "framing"
  | trailing _ => "eof"
  | io _ => "io"

/-- The stream declared a frame that can never be valid. -/
def isMalformed : StreamError → Bool
  | framing _ => true
  | _ => false

def toIoError : StreamError → IoError
  | framing e => ⟨.invalidData, e.message⟩
  | trailing bytes => ⟨.unexpectedEof, trailingMessage bytes⟩
  | io e => e

end StreamError

end FrameIntake
