import FrameIntake.Consumer
import FrameIntake.Options.Load
import FrameIntake.Printer

/-!
The program: a consumer that is configured by a command line and prints every message.
-/

namespace FrameIntake

/-- Why the program ends before it serves. -/
inductive RunError
  | load (error : LoadError)
  | metrics (error : IoError)
  | config (problems : List Problem)
  | bind (error : IoError)
  deriving DecidableEq, Repr

namespace RunError

def bindMessage (e : IoError) : String := s!"bind error: {e.message}"

def message : RunError → String
  | load e => e.message
  | metrics e => s!"failed to create HTTP listener: {e.message}"
  | config problems => Problem.summary problems
  | bind e => bindMessage e

end RunError

namespace Program

/-- Options of the command line, and of a file of the host that it names. -/
def options (a : Arguments) (h : Host) : Except LoadError Options :=
  Options.load a h.readFile

/-- Takes the address for metrics, if one is asked for. -/
def serveMetrics (a : Arguments) (h : Host) : Except IoError (Host × List Notice) :=
  match a.metricsAddress with
  | none => .ok (h, [])
  | some address => (h.bindTcp address).map fun (_, h) => (h, [.servingMetrics address.display])

/-- Starts the program on a host: options are loaded, metrics served, options checked and the address
bound, and the first of these that fails ends it. -/
def start (a : Arguments) (h : Host) : Except RunError Consumer × List Notice :=
  match options a h with
  | .error e => (.error (.load e), [])
  | .ok options =>
    match serveMetrics a h with
    | .error e => (.error (.metrics e), [])
    | .ok (h, notices) =>
      match options.validate with
      | .error problems => (.error (.config problems), notices)
      | .ok config =>
        let bound := Listener.bind 1 config.address h
        match bound.result with
        | .error e => (.error (.bind e), notices ++ bound.notices)
        | .ok listener =>
          (.ok (Consumer.launch config listener bound.host {} {} .none (notices ++ bound.notices)), [])

/-- The interrupt stops the program, once. -/
def interrupt (c : Consumer) : Consumer :=
  if c.stopping then c else c.stop.report [.interrupted]

/-- Prints what has arrived. If that fails, no handler can send any more. -/
def print (c : Consumer) (out : Writer) : Consumer × Writer :=
  let printed := out.outlet.serve out.past c.intake.sink
  let intake : Intake := { c.intake with sink := printed.sink }
  ({ c with intake := intake.rouse }.report printed.notices, { out with past := printed.past })

end Program

end FrameIntake
