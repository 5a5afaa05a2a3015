/-!
Counters of a run. A metric is reported once something touched it: a counter when it is not zero, the
number of open connections when one was ever opened.
-/

namespace FrameIntake

inductive ErrorKind
  | framing | trailingData | io | accept | sink
  deriving DecidableEq, Repr

def ErrorKind.name : ErrorKind → String
  | framing => "framing"
  | trailingData => "trailing_data"
  | io => "io"
  | accept => "accept"
  | sink => "sink"

inductive Metric
  | messageRouted
  | connectionOpened
  | connectionEnded
  | connectionPanicked
  | error (kind : ErrorKind)
  deriving DecidableEq, Repr

structure Metrics where
  messages : Nat := 0
  opened : Nat := 0
  ended : Nat := 0
  panics : Nat := 0
  errors : ErrorKind → Nat := fun _ => 0

namespace Metrics

def record (m : Metrics) : Metric → Metrics
  | .messageRouted => { m with messages := m.messages + 1 }
  | .connectionOpened => { m with opened := m.opened + 1 }
  | .connectionEnded => { m with ended := m.ended + 1 }
  | .connectionPanicked => { m with panics := m.panics + 1 }
  | .error kind => { m with errors := fun k => if k = kind then m.errors k + 1 else m.errors k }

def recordAll (m : Metrics) (events : List Metric) : Metrics := events.foldl record m

def active (m : Metrics) : Int := m.opened - m.ended

/-- The touched metrics by name. -/
def entries (m : Metrics) : List (String × Int) :=
  let counter (name : String) (n : Nat) := if n = 0 then [] else [(name, (n : Int))]
  let failures (kind : ErrorKind) :=
    counter ("relayframe_errors_total\x7bkind=" ++ kind.name ++ "\x7d") (m.errors kind)
  counter "relayframe_messages_total" m.messages ++
    (if m.opened = 0 then [] else [("relayframe_connections_active", m.active)]) ++
    counter "relayframe_connection_panics_total" m.panics ++
    [ErrorKind.framing, .trailingData, .io, .accept, .sink].flatMap failures

end Metrics

end FrameIntake
