import FrameIntake.Message
import FrameIntake.Sink
import FrameIntake.Text.Quoted

/-!
What a running consumer reports about itself, and the lines of its log.
-/

namespace FrameIntake

/-- Why a connection was closed. -/
inductive Outcome
  | shutdown
  | fuseBurned
  | peerClosed
  /-- The peer declared a frame that can never be valid. -/
  | malformed
  | readError
  | sinkClosed
  deriving DecidableEq, Repr

def Outcome.name : Outcome → String
  | shutdown => "Shutdown"
  | fuseBurned => "FuseBurned"
  | peerClosed => "PeerClosed"
  | malformed => "Malformed"
  | readError => "ReadError"
  | sinkClosed => "SinkClosed"

inductive Level
  | debug | info | warn | error
  deriving DecidableEq, Repr

def Level.name : Level → String
  | debug => "DEBUG"
  | info => "INFO"
  | warn => "WARN"
  | error => "ERROR"

inductive Notice
  | fuseBurned
  | fuseCleared
  | connectionOpened (peer stream : String)
  | bytesDiscarded (peer : String) (bytes : Nat) (outcome : Outcome)
  | frameIncomplete (peer : String) (bytes : Nat)
  | frameMalformed (peer : String) (error : StreamError)
  | readFailed (peer : String) (error : StreamError)
  | sinkRefused (peer : String)
  | connectionClosed (peer : String) (outcome : Outcome)
  | connectionPanicked (peer what : String)
  | acceptorStarted (localAddress : Option String)
  | connectionAccepted (peer : String)
  | acceptFailed (error : IoError) (localAddress : Option String)
  | acceptorStopped
  | consumerStarted (address partitioner stream : String)
  | readinessLost
  | acceptorStoppedEarly (address : String)
  | consumerStopped (address : String)
  | bindFailed (address : String) (error : IoError)
  | staleSocketRemoved (path : String)
  | socketRemoved (path : String)
  | socketKept (path : String) (error : IoError)
  | servingMetrics (address : String)
  | interrupted
  | outputClosed (error : IoError)
  deriving DecidableEq, Repr

namespace Notice

def optional (text : Option String) : String :=
  match text with
  | some t => "Some(" ++ Text.Quoted.encode t ++ ")"
  | none => "None"

/-- The log records of a notice. Only a panic is recorded twice, in two forms. -/
def records : Notice → List (Level × String)
  | fuseBurned => [(.info, "fuse burned")]
  | fuseCleared => [(.info, "fuse cleared")]
  | connectionOpened peer stream => [(.debug, s!"connection opened: peer={peer}, stream={stream}")]
  | bytesDiscarded peer bytes outcome =>
    [(.info, s!"discarding buffered bytes: peer={peer}, bytes={bytes}, outcome={outcome.name}")]
  | frameIncomplete peer bytes =>
    [(.error, s!"discarding incomplete frame at end of stream: peer={peer}, bytes={bytes}")]
  | frameMalformed peer e =>
    [(.error, s!"malformed frame, closing connection: peer={peer}, error={e.message}")]
  | readFailed peer e => [(.warn, s!"connection read failed: peer={peer}, error={e.message}")]
  | sinkRefused peer =>
    [(.warn, s!"closing connection: peer={peer}, error={Sink.closedMessage}")]
  | connectionClosed peer outcome =>
    [(.debug, s!"connection closed: peer={peer}, outcome={outcome.name}")]
  | connectionPanicked peer what =>
    [(.error, s!"connection task panicked: panic={what}, peer={peer}"),
      (.error, s!"connection task panicked panic={what} peer={peer}")]
  | acceptorStarted address => [(.debug, s!"acceptor started: local_addr={optional address}")]
  | connectionAccepted peer => [(.debug, s!"connection accepted: peer={peer}")]
  | acceptFailed e address =>
    [(.error, s!"accept failed: error={e.message}, local_addr={optional address}")]
  | acceptorStopped => [(.debug, "acceptor stopped")]
  | consumerStarted address partitioner stream =>
    [(.info, s!"consumer started: address={address}, partitioner={partitioner}, stream={stream}")]
  | readinessLost => [(.warn, "Failed to send readiness signal: receiver dropped")]
  | acceptorStoppedEarly address =>
    [(.warn, s!"acceptor stopped before shutdown: address={address}")]
  | consumerStopped address => [(.info, s!"consumer stopped: address={address}")]
  | bindFailed address e => [(.error, s!"bind failed: address={address}, error={e.message}")]
  | staleSocketRemoved path => [(.debug, s!"removed stale socket file: path={path}")]
  | socketRemoved path => [(.debug, s!"removed socket file: path={path}")]
  | socketKept path e =>
    [(.warn, s!"failed to remove socket file: path={path}, error={e.message}")]
  | servingMetrics address => [(.info, s!"serving metrics: address={address}")]
  | interrupted => [(.info, "interrupt received, shutting down")]
  | outputClosed e => [(.warn, s!"stdout closed, dropping messages: error={e.message}")]

def lines (n : Notice) : List String :=
  n.records.map fun (level, text) => level.name ++ " " ++ text

end Notice

end FrameIntake
