import FrameIntake.Options.Problem
import FrameIntake.Options.SocketAddress
import FrameIntake.Text.Split

/-!
Where a consumer listens: a TCP host and port, or a path of a Unix socket.
-/

namespace FrameIntake

inductive ListenAddress
  | tcp (target : String)
  | unix (path : String)
  deriving DecidableEq, Repr

namespace ListenAddress

def value : ListenAddress → String
  | tcp target => target
  | unix path => path

/-- The written form, with the protocol in front. -/
def display : ListenAddress → String
  | tcp target => "tcp://" ++ target
  | unix path => "unix://" ++ path

/-- All interfaces, for an address without a host. -/
def anyHost : List Char := "0.0.0.0".toList

/-- A host with a colon in it has to stand in brackets. -/
def isHost (host : List Char) : Bool :=
  !host.contains ':' || (host.head? == some '[' && host.getLast? == some ']')

/-- Reads `host:port`. The port keeps its spelling. -/
def readTarget? (target : List Char) : Option String :=
  (Text.splitLast? ':' target).bind fun (host, port) =>
    if (Text.unsigned? SocketAddress.portLimit port).isSome && isHost host then
      some (String.ofList ((if host.isEmpty then anyHost else host) ++ ':' :: port))
    else none

/-- The protocol in lower case, and what stands behind it. Without a protocol it is TCP. -/
def splitProtocol (address : String) : String × List Char :=
  match Text.splitFirst? "://".toList address.toList with
  | some (protocol, target) => (String.ofList (protocol.map Char.toLower), target)
  | none => ("tcp", address.toList)

def parse (address : String) : Except Problem ListenAddress :=
  let (protocol, target) := splitProtocol address
  if protocol = "tcp" ∨ protocol = "tcp4" ∨ protocol = "tcp6" then
    match readTarget? target with
    | some target => .ok (.tcp target)
    | none => .error (.invalidAddress address)
  else if protocol = "unix" then
    if target.isEmpty then .error (.invalidAddress address) else .ok (.unix (String.ofList target))
  else .error (.unsupportedProtocol protocol)

end ListenAddress

end FrameIntake
