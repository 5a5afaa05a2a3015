import FrameIntake.Options.Basic
import FrameIntake.Options.SocketAddress

/-!
Options on a command line. Every option takes one value, in the next argument or attached with an equals
sign; a short option may have it attached without one. The value of an option is checked when the next
option is met or the line ends, so an unknown argument behind a bad value is what is told.
-/

namespace FrameIntake

/-- Why a command line is not carried out. -/
inductive Refusal
  | unknownArgument
  | missingValue
  | unneededValue
  | invalidValue
  | repeatedOption
  | showHelp
  | showVersion
  deriving DecidableEq, Repr

def Refusal.message : Refusal → String
  | unknownArgument => "unknown argument"
  | missingValue => "an option has no value"
  | unneededValue => "a value where none is taken"
  | invalidValue => "invalid value of an option"
  | repeatedOption => "an option is given twice"
  | showHelp => "options: -c/--config, -a/--address, -p/--partitioner, -d/--delimiter, --offset, " ++
      "--size, -s/--stream, --max-message-size, --metrics-addr, -h/--help, -V/--version"
  | showVersion => "frame intake"

structure Arguments where
  config : Option String := none
  address : Option String := none
  partitioner : Option String := none
  delimiter : Option String := none
  offset : Option Int := none
  size : Option Int := none
  stream : Option String := none
  maxMessageSize : Option Nat := none
  metricsAddress : Option SocketAddress := none
  deriving DecidableEq, Repr

inductive Flag
  | config | address | partitioner | delimiter | offset | size | stream | maxMessageSize
  | metricsAddress
  deriving DecidableEq, Repr

/-- A word that a dash or two introduce: an option with a value, or a question. -/
inductive Word
  | flag (flag : Flag)
  | help
  | version
  deriving DecidableEq, Repr

namespace Word

def ofLong? : String → Option Word
  | "config" => some (flag .config)
  | "address" => some (flag .address)
  | "partitioner" => some (flag .partitioner)
  | "delimiter" => some (flag .delimiter)
  | "offset" => some (flag .offset)
  | "size" => some (flag .size)
  | "stream" => some (flag .stream)
  | "max-message-size" => some (flag .maxMessageSize)
  | "metrics-addr" => some (flag .metricsAddress)
  | "help" => some help
  | "version" => some version
  | _ => none

def ofShort? : Char → Option Word
  | 'c' => some (flag .config)
  | 'a' => some (flag .address)
  | 'p' => some (flag .partitioner)
  | 'd' => some (flag .delimiter)
  | 's' => some (flag .stream)
  | 'h' => some help
  | 'V' => some version
  | _ => none

end Word

namespace Flag

/-- A negative number may follow as the value. -/
def allowsNegative : Flag → Bool
  | offset | size => true
  | _ => false

end Flag

namespace Arguments

def given (a : Arguments) : Flag → Bool
  | .config => a.config.isSome
  | .address => a.address.isSome
  | .partitioner => a.partitioner.isSome
  | .delimiter => a.delimiter.isSome
  | .offset => a.offset.isSome
  | .size => a.size.isSome
  | .stream => a.stream.isSome
  | .maxMessageSize => a.maxMessageSize.isSome
  | .metricsAddress => a.metricsAddress.isSome

/-- Gives an option its value. -/
def set (a : Arguments) (flag : Flag) (value : String) : Except Refusal Arguments :=
  let checked {α : Type} (v : Option α) (put : α → Arguments) : Except Refusal Arguments :=
    v.elim (.error .invalidValue) fun v => .ok (put v)
  match flag with
  | .config =>
    if value.isEmpty then .error .missingValue else .ok { a with config := some value }
  | .address => .ok { a with address := some value }
  | .partitioner => .ok { a with partitioner := some value }
  | .delimiter => .ok { a with delimiter := some value }
  | .stream => .ok { a with stream := some value }
  | .offset => checked (Text.signed? value.toList) fun n => { a with offset := some n }
  | .size => checked (Text.signed? value.toList) fun n => { a with size := some n }
  | .maxMessageSize =>
    checked (Text.unsigned? wordLimit value.toList) fun n => { a with maxMessageSize := some n }
  | .metricsAddress =>
    checked (SocketAddress.parse? value) fun addr => { a with metricsAddress := some addr }

/-- Options of the command line take the place of those from a file. -/
def override (a : Arguments) (o : Options) : Options :=
  { address := a.address.getD o.address
    partitioner := a.partitioner.getD o.partitioner
    delimiter := a.delimiter.getD o.delimiter
    offset := a.offset.getD o.offset
    size := a.size.or o.size
    stream := a.stream.getD o.stream
    maxMessageSize := a.maxMessageSize.getD o.maxMessageSize }

end Arguments

namespace CommandLine

/-- An option that was met last, with its value once that is there. -/
structure Pending where
  flag : Flag
  value : Option String
  deriving DecidableEq, Repr

/-- Digits, with a point and an exponent where a number may have them. -/
def isNumber (cs : List Char) : Bool :=
  let whole := cs.dropWhile Text.isDecimal
  let scan (rest : List Char) : Bool :=
    match rest with
    | [] => true
    | e :: digits => (e = 'e' || e = 'E') && !digits.isEmpty && digits.all Text.isDecimal
  !cs.isEmpty && whole.length < cs.length &&
    match whole with
    | '.' :: rest => scan (rest.dropWhile Text.isDecimal)
    | rest => scan rest

/-- Carries out the option that was met last. -/
def complete (a : Arguments) : Option Pending → Except Refusal Arguments
  | none => .ok a
  | some ⟨_, none⟩ => .error .missingValue
  | some ⟨flag, some value⟩ =>
    if a.given flag then .error .repeatedOption else a.set flag value

/-- Takes up a word, with the value that is attached to it. -/
def meet (a : Arguments) (pending : Option Pending) (word : Word) (attached : Option String) :
    Except Refusal (Arguments × Option Pending) := do
  let a ← complete a pending
  match word, attached with
  | .flag flag, none => .ok (a, some ⟨flag, none⟩)
  | .flag flag, some value => .ok (← complete a (some ⟨flag, some value⟩), none)
  | .help, _ => .error .showHelp
  | .version, _ => .error .showVersion

/-- The name of a long option, and the value behind its equals sign. -/
def splitLong (cs : List Char) : String × Option String :=
  (String.ofList (cs.takeWhile (· ≠ '=')),
    match cs.dropWhile (· ≠ '=') with
    | _ :: value => some (String.ofList value)
    | [] => none)

def attachedToShort : List Char → Option String
  | [] => none
  | '=' :: value => some (String.ofList value)
  | value => some (String.ofList value)

/-- Takes up one argument. -/
def take (a : Arguments) (pending : Option Pending) (argument : String) :
    Except Refusal (Arguments × Option Pending) :=
  let asValue : Except Refusal (Arguments × Option Pending) :=
    match pending with
    | some ⟨flag, none⟩ => .ok (a, some ⟨flag, some argument⟩)
    | _ => .error .unknownArgument
  match argument.toList with
  | '-' :: '-' :: long =>
    let (name, attached) := splitLong long
    match Word.ofLong? name with
    | none => .error .unknownArgument
    | some (.flag flag) => meet a pending (.flag flag) attached
    | some word => if attached.isSome then .error .unneededValue else meet a pending word none
  | ['-'] => asValue
  | '-' :: c :: rest =>
    let negative := pending.any fun p =>
      p.value.isNone && p.flag.allowsNegative && isNumber (c :: rest)
    if negative then asValue
    else
      match Word.ofShort? c with
      | none => .error .unknownArgument
      | some word => meet a pending word (attachedToShort rest)
  | _ => asValue

/-- Two dashes end the options. Nothing may follow them. -/
def parseFrom (a : Arguments) (pending : Option Pending) : List String → Except Refusal Arguments
  | [] => complete a pending
  | argument :: rest =>
    if argument = "--" then
      if rest.isEmpty then complete a pending else .error .unknownArgument
    else
      match take a pending argument with
      | .ok (a, pending) => parseFrom a pending rest
      | .error e => .error e

def parse (arguments : List String) : Except Refusal Arguments := parseFrom {} none arguments

end CommandLine

end FrameIntake
