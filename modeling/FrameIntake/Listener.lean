import FrameIntake.Host
import FrameIntake.Notice
import FrameIntake.Options.Address

/-!
Listening sockets. Binding a path replaces a socket that was left behind there, but nothing else;
releasing a listener removes the file at its path.
-/

namespace FrameIntake

inductive Endpoint
  | tcp (address : SocketAddress)
  | unix (path : String)
  deriving DecidableEq, Repr

namespace Endpoint

/-- The address as log records show it, also for peers that have none of their own. -/
def display : Endpoint → String
  | tcp address => address.display
  | unix path => "unix:" ++ path

def tcpAddress? : Endpoint → Option SocketAddress
  | tcp address => some address
  | unix _ => none

end Endpoint

structure Listener where
  /-- Tells the sockets of different listeners apart. -/
  number : Nat
  endpoint : Endpoint
  deriving DecidableEq, Repr

/-- What an attempt on the host came to, what it left behind there, and its notices. -/
structure Attempt (α : Type) where
  result : Except IoError α
  host : Host
  notices : List Notice := []

namespace Listener

def notASocket (path : String) : IoError :=
  ⟨.alreadyExists, s!"path {path} exists but is not a socket"⟩

/-- Clears a path for a new socket: a socket there is taken for one that was left behind. -/
def clearPath (path : String) (h : Host) : Attempt Unit :=
  match h.lookupFile path with
  | .error e => { result := if e.kind = .notFound then .ok () else .error e, host := h }
  | .ok entry =>
    if entry.isSocket then
      match h.removeFile path with
      | .ok h => { result := .ok (), host := h, notices := [.staleSocketRemoved path] }
      | .error e => { result := .error e, host := h }
    else { result := .error (notASocket path), host := h }

/-- Makes a socket for listener `number`. -/
def createSocket (number : Nat) (path : String) (h : Host) : Attempt Listener :=
  match h.createSocket number path with
  | .error e => { result := .error e, host := h }
  | .ok h => { result := .ok ⟨number, .unix path⟩, host := h }

def bindUnix (number : Nat) (path : String) (h : Host) : Attempt Listener :=
  let cleared := clearPath path h
  match cleared.result with
  | .error e => { result := .error e, host := cleared.host, notices := cleared.notices }
  | .ok () =>
    let made := createSocket number path cleared.host
    { made with notices := cleared.notices ++ made.notices }

def bindTcp (number : Nat) (target : String) (h : Host) : Attempt Listener :=
  match Host.resolve target with
  | .error e => { result := .error e, host := h }
  | .ok address =>
    match h.bindTcp address with
    | .error e => { result := .error e, host := h }
    | .ok (address, h) => { result := .ok ⟨number, .tcp address⟩, host := h }

/-- Binds an address for listener `number`. A failure is worth a notice. -/
def bind (number : Nat) (address : ListenAddress) (h : Host) : Attempt Listener :=
  let bound := match address with
    | .tcp target => bindTcp number target h
    | .unix path => bindUnix number path h
  match bound.result with
  | .ok _ => bound
  | .error e => { bound with notices := bound.notices ++ [.bindFailed address.display e] }

/-- Gives up the address. Of a Unix listener the file at its path goes too, if there is one. -/
def release (l : Listener) (h : Host) : Host × List Notice :=
  match l.endpoint with
  | .tcp address => (h.releaseTcp address, [])
  | .unix path =>
    match h.removeFile path with
    | .ok h => (h, [.socketRemoved path])
    | .error e => (h, if e.kind = .notFound then [] else [.socketKept path e])

/-- The listener's own socket is still where it was bound. -/
def isReachable (l : Listener) (h : Host) : Bool :=
  match l.endpoint with
  | .tcp _ => h.networked
  | .unix path =>
    match h.lookupFile path with
    | .ok entry => entry = .socket l.number
    | .error _ => false

end Listener

end FrameIntake
