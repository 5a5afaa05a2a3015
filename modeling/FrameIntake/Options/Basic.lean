import FrameIntake.Framing.Partitioner
import FrameIntake.Options.Address

/-!
The options of a consumer, and their check. A consumer is configured by options that have no problem;
otherwise all problems are told at once.
-/

namespace FrameIntake

/-- Options as they are written, before any check. -/
structure Options where
  address : String := ":5880"
  partitioner : String := "delimiter"
  /-- With backslash escapes. -/
  delimiter : String := "\n"
  offset : Int := 0
  /-- The width of a binary length, or the size of a fixed frame. -/
  size : Option Int := none
  stream : String := "proxy"
  maxMessageSize : Nat := Partitioner.defaultMax
  deriving DecidableEq, Repr

/-- Checked options. -/
structure Config where
  address : ListenAddress
  partitioner : Partitioner
  stream : String
  deriving DecidableEq, Repr

namespace Options

def defaultBinarySize : Int := 4

def defaultFixedSize : Int := 1

def binarySize (o : Options) : Int := o.size.getD defaultBinarySize

def fixedSize (o : Options) : Int := o.size.getD defaultFixedSize

def kind? (o : Options) : Option PartitionerKind := PartitionerKind.ofName? o.partitioner

def addressProblems (o : Options) : List Problem :=
  match ListenAddress.parse o.address with
  | .ok _ => []
  | .error p => [p]

def nameProblems (o : Options) : List Problem :=
  if o.kind?.isSome then [] else [.unknownPartitioner o.partitioner]

def escapeProblems (o : Options) : List Problem :=
  match Escape.unescape o.delimiter with
  | .ok _ => []
  | .error e => [.invalidEscape e]

def offsetProblems (o : Options) : List Problem :=
  if o.offset < 0 then [.negativeOffset o.offset] else []

def ceilingProblems (o : Options) : List Problem :=
  if o.maxMessageSize = 0 then [.zeroMaxMessageSize] else []

/-- The delimiter is judged only if it can be decoded. -/
def delimiterProblems (o : Options) (digitAllowed : Bool) : List Problem :=
  match Escape.unescape o.delimiter with
  | .error _ => []
  | .ok [] => [.emptyDelimiter]
  | .ok (b :: _) => if !digitAllowed && Bytes.isDigit b then [.digitDelimiter] else []

/-- Problems that only the chosen kind of partitioner has. -/
def kindProblems (o : Options) : PartitionerKind → List Problem
  | .delimiter => o.delimiterProblems true
  | .ascii => o.delimiterProblems false
  | .binary | .binaryBigEndian =>
    if (Width.ofSize? o.binarySize).isSome then [] else [.invalidBinarySize o.binarySize]
  | .fixed =>
    if o.fixedSize ≤ 0 then [.invalidFixedSize o.fixedSize]
    else if 0 < o.maxMessageSize ∧ o.maxMessageSize < o.fixedSize.toNat then
      [.fixedSizeExceedsMax o.fixedSize.toNat o.maxMessageSize]
    else []

def streamProblems (o : Options) : List Problem :=
  if o.stream.isEmpty then [.emptyStream] else []

/-- Everything that is wrong, in the order in which it is told. -/
def problems (o : Options) : List Problem :=
  o.addressProblems ++ o.nameProblems ++ o.escapeProblems ++ o.offsetProblems ++
    o.ceilingProblems ++ (o.kind?.elim [] o.kindProblems) ++ o.streamProblems

def delimiter? (o : Options) : Option Delimiter :=
  (Escape.unescape o.delimiter).toOption.bind Delimiter.ofBytes?

/-- The partitioner that options without problems describe. -/
def describe? (o : Options) : PartitionerKind → Option Partitioner
  | .delimiter => o.delimiter?.map fun mark => .delimiter mark o.maxMessageSize
  | .ascii => o.delimiter?.map fun mark => .ascii o.offset.toNat mark o.maxMessageSize
  | .binary =>
    (Width.ofSize? o.binarySize).map fun width =>
      .binary o.offset.toNat ⟨width, .little⟩ o.maxMessageSize
  | .binaryBigEndian =>
    (Width.ofSize? o.binarySize).map fun width =>
      .binary o.offset.toNat ⟨width, .big⟩ o.maxMessageSize
  | .fixed => Partitioner.fixed? o.fixedSize.toNat

def config? (o : Options) : Option Config := do
  let address ← (ListenAddress.parse o.address).toOption
  let partitioner ← o.describe? (← o.kind?)
  some { address, partitioner, stream := o.stream }

/-- Checks every option. -/
def validate (o : Options) : Except (List Problem) Config :=
  match o.problems, o.config? with
  | [], some config => .ok config
  | problems, _ => .error problems

end Options

end FrameIntake
