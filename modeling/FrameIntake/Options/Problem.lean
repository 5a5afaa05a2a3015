import FrameIntake.Options.Escape

/-!
What can be wrong with an option.
-/

namespace FrameIntake

inductive Problem
  | unsupportedProtocol (protocol : String)
  | invalidAddress (address : String)
  | unknownPartitioner (name : String)
  | invalidBinarySize (size : Int)
  | invalidFixedSize (size : Int)
  | negativeOffset (offset : Int)
  | emptyDelimiter
  | digitDelimiter
  | invalidEscape (error : EscapeError)
  | zeroMaxMessageSize
  | fixedSizeExceedsMax (size max : Nat)
  | emptyStream
  deriving DecidableEq, Repr

namespace Problem

def message : Problem → String
  | unsupportedProtocol protocol => s!"protocol {protocol} is not supported"
  | invalidAddress address => s!"invalid address: {address}"
  | unknownPartitioner name => s!"unknown partitioner: {name}"
  | invalidBinarySize size => s!"size {size} is not supported, use 1, 2, 4 or 8"
  | invalidFixedSize size => s!"fixed message size must be positive, got {size}"
  | negativeOffset offset => s!"offset must not be negative, got {offset}"
  | emptyDelimiter => "delimiter must not be empty"
  | digitDelimiter => "ascii delimiter must not start with a digit"
  | invalidEscape e => e.message
  | zeroMaxMessageSize => "maximum message size must be positive"
  | fixedSizeExceedsMax size max =>
    s!"fixed message size {size} exceeds maximum message size {max}"
  | emptyStream => "stream name must not be empty"

/-- All problems of a configuration in one line. -/
def summary (problems : List Problem) : String :=
  "invalid consumer configuration: " ++ "; ".intercalate (problems.map message)

end Problem

end FrameIntake
