/-!
What a partitioner says about the front of a buffer.
-/

namespace FrameIntake

/-- Why no continuation of a buffer can start with a frame. -/
inductive FramingError
  | oversized (size max : Nat)
  | invalidLength
  | lengthOverflow
  deriving DecidableEq, Repr

def FramingError.message : FramingError → String
  | oversized size max => s!"frame exceeds max length: {size} > {max}"
  | invalidLength => "invalid frame length encoding"
  | lengthOverflow => "frame length overflows usize"

/-- A frame at the front of a buffer: its end, and where its payload lies in it. -/
structure Bounds where
  stop : Nat
  payloadStart : Nat
  payloadStop : Nat
  deriving DecidableEq, Repr

inductive Verdict
  | found (bounds : Bounds)
  /-- Bytes before `resumeAt` need not be looked at again. -/
  | needMore (resumeAt : Nat)
  | malformed (error : FramingError)
  deriving DecidableEq, Repr

end FrameIntake
