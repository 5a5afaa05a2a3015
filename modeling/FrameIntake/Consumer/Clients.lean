import FrameIntake.Consumer

/-!
A consumer together with clients of it on the same host.
-/

namespace FrameIntake

/-- A client that has not closed its connection. -/
structure Client where
  name : String
  connection : Nat
  /-- What its own end was bound to. -/
  path : String
  /-- It has not ended its stream. -/
  writing : Bool := true
  deriving DecidableEq, Repr

structure Clients where
  consumer : Consumer
  clients : List Client := []
  /-- The number of the next connection. -/
  next : Nat := 0

namespace Clients

def find? (s : Clients) (name : String) : Option Client := s.clients.find? (·.name = name)

/-- Numbers of client sockets are kept apart from those of listeners. -/
def socketNumber (connection : Nat) : Nat := 1000 + connection

/-- The path of a client's file, which ends at the first NUL. -/
def filePath (path : String) : String := String.ofList (path.toList.takeWhile (· ≠ '\x00'))

/-- Whether a path leads to a file. None does that is empty or begins with NUL. -/
def namesFile (path : String) : Bool := filePath path ≠ ""

/-- Whether a name that is no file can be given to one more client. An empty one is no name at all. -/
def isFree (s : Clients) (path : String) : Bool :=
  path.isEmpty ||
    (path.utf8ByteSize ≤ Host.socketPathLimit && s.clients.all fun c => c.path ≠ path)

/-- Binds the client's own end. -/
def bindEnd (s : Clients) (path : String) : Option Clients :=
  if !namesFile path then if s.isFree path then some s else none
  else if Host.socketPathLimit ≤ path.utf8ByteSize then none
  else
    match s.consumer.host.createSocket (socketNumber s.next) (filePath path) with
    | .error _ => none
    | .ok host => some { s with consumer := { s.consumer with host } }

/-- What the consumer calls the peer: its own path, or that of the listener. -/
def peerName (s : Clients) (path : String) : String :=
  match s.consumer.listener.endpoint with
  | .tcp address => (address.withPort (Host.firstFreePort + socketNumber s.next)).display
  | .unix listening => "unix:" ++ (if namesFile path then filePath path else listening)

def without (s : Clients) (name : String) : Clients :=
  { s with clients := s.clients.filter (·.name ≠ name) }

def arrive (s : Clients) (c : Client) (read : Read) : Clients :=
  { s with consumer := s.consumer.onIntake (.arrive c.connection read) }

/-- A client closes its connection, if it is there. -/
def close (s : Clients) (name : String) : Clients :=
  match s.find? name with
  | none => s
  | some c => (if c.writing then s.arrive c .ended else s).without name

/-- A new client. It fails where there is no listener to reach. -/
def connect (s : Clients) (name path : String) : Clients × Bool :=
  match s.bindEnd path with
  | none => (s, false)
  | some s =>
    if s.consumer.isFinished || !s.consumer.listener.isReachable s.consumer.host then (s, false)
    else
      let config := s.consumer.config
      let peer : Connection :=
        { Connection.start s.next (s.peerName path) config.partitioner config.stream with
          source := .stream false }
      let s := s.close name
      ({ consumer := s.consumer.onIntake (.connect peer)
         clients := s.clients ++ [{ name, connection := s.next, path }]
         next := s.next + 1 }, true)

/-- A client sends bytes, or fails to because one of the two ends is closed. -/
def send (s : Clients) (c : Client) (bytes : Bytes) : Clients × Bool :=
  if bytes.isEmpty then (s, true)
  else if !c.writing || s.consumer.hasClosed c.connection then (s, false)
  else (s.arrive c (.data bytes), true)

/-- A client ends its stream and keeps the connection. -/
def endStream (s : Clients) (c : Client) : Clients :=
  if c.writing then
    let s := s.arrive c .ended
    { s with clients := s.clients.map fun d => if d = c then { d with writing := false } else d }
  else s

/-- The clients whose connection the consumer has closed. -/
def closedNames (s : Clients) : List String :=
  (s.clients.filter fun c => s.consumer.hasClosed c.connection).map Client.name

def onConsumer (s : Clients) (f : Consumer → Consumer) : Clients :=
  { s with consumer := f s.consumer }

end Clients

end FrameIntake
