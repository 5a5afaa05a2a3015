import FrameIntake.Host.FileTree
import FrameIntake.Host.NumericName
import FrameIntake.Options.SocketAddress

/-!
The machine that a consumer runs on: its files, the TCP addresses that are taken, and whether its
network carries anything.
-/

namespace FrameIntake

structure Host where
  files : FileTree := {}
  occupied : List SocketAddress := []
  /-- Peers can be connected to. Without a network, addresses can be bound all the same. -/
  networked : Bool := true
  deriving Repr

namespace Host

/-- The port that the host gives out first to those that ask for none in particular. -/
def firstFreePort : Nat := 49152

def lookupFailed : IoError :=
  ⟨.uncategorized,
    "failed to lookup address information: Temporary failure in name resolution"⟩

/-- The octets that a host name stands for. No name but that of the host itself is known. -/
def octetsOfName? (name : List Char) : Option (List Nat) :=
  if name.map Char.toLower = "localhost".toList then some [127, 0, 0, 1]
  else NumericName.octets? name

/-- Finds out the address that a host name and a port stand for. -/
def resolve (target : String) : Except IoError SocketAddress :=
  match SocketAddress.parse? target, Text.splitLast? ':' target.toList with
  | some a, _ => .ok a
  | none, some (name, portText) =>
    if name.contains '\x00' then .error .nameHoldsNul
    else
      match Text.unsigned? SocketAddress.portLimit portText, octetsOfName? name with
      | some port, some octets => .ok (.v4 octets port)
      | _, _ => .error lookupFailed
  | none, none => .error lookupFailed

/-- Any address of one family, which stands for all interfaces. -/
def isUnspecified : SocketAddress → Bool
  | .v4 octets _ => octets.all (· = 0)
  | .v6 groups _ _ => groups.all (· = 0)

/-- The address at which a host reaches itself. -/
def isLoopback : SocketAddress → Bool
  | .v4 octets _ => octets.head? == some 127
  | .v6 groups _ _ => groups.getLast? == some 1 && groups.dropLast.all (· = 0)

/-- Two addresses that cannot both be listened on. Listening on all interfaces with groups takes the
addresses with octets too. -/
def conflicts (a b : SocketAddress) : Bool :=
  a.port = b.port &&
    match a.unmapped, b.unmapped with
    | .v4 x xp, .v4 y yp => x = y || isUnspecified (.v4 x xp) || isUnspecified (.v4 y yp)
    | .v6 x xs xp, .v6 y ys yp => x = y || isUnspecified (.v6 x xs xp) || isUnspecified (.v6 y ys yp)
    | .v6 x xs xp, .v4 _ _ => isUnspecified (.v6 x xs xp)
    | .v4 _ _, .v6 y ys yp => isUnspecified (.v6 y ys yp)

/-- The number of the interface by which a host reaches itself, the only one that it surely has. -/
def loopbackInterface : Nat := 1

/-- Why the host cannot listen on an address that is free. Without a network it has no addresses of its
own, and then any four octets will do; groups have to be its own in any case. -/
def refusal? (h : Host) (a : SocketAddress) : Option IoError :=
  match a.unmapped with
  | .v4 octets port =>
    let own := isUnspecified (.v4 octets port) || isLoopback (.v4 octets port)
    if own || !h.networked then none else some .addressNotAvailable
  | .v6 groups scope port =>
    let front := groups.headD 0
    if isUnspecified (.v6 groups scope port) then none
    else if 0xff00 ≤ front then some .invalidArgument
    else if 0xfe80 ≤ front && front < 0xfec0 && scope ≠ loopbackInterface then
      some (if scope = 0 then .invalidArgument else .noSuchDevice)
    else if isLoopback (.v6 groups scope port) && h.networked then none
    else some .addressNotAvailable

/-- Takes a TCP address. Port zero asks for any port. -/
def bindTcp (h : Host) (a : SocketAddress) : Except IoError (SocketAddress × Host) :=
  let a := if a.port = 0 then a.withPort (firstFreePort + h.occupied.length) else a
  match h.refusal? a with
  | some e => .error e
  | none =>
    if h.occupied.any (conflicts a) then .error .addressInUse
    else .ok (a, { h with occupied := a :: h.occupied })

def releaseTcp (h : Host) (a : SocketAddress) : Host :=
  { h with occupied := h.occupied.erase a }

/-- A connection between two sockets of the host, where the network allows it. -/
def connectTcp (h : Host) : Except IoError Unit :=
  if h.networked then .ok () else .error .networkUnreachable

/-- Paths of sockets have to be shorter, in bytes. -/
def socketPathLimit : Nat := 108

def socketPathTooLong : IoError := ⟨.invalidInput, "path must be shorter than SUN_LEN"⟩

/-- Makes a socket at a path, for the listener or client of that number. -/
def createSocket (h : Host) (number : Nat) (path : String) : Except IoError Host :=
  if socketPathLimit ≤ path.utf8ByteSize then .error socketPathTooLong
  else do
    let files ← h.files.create (← FilePath.parse path) (.socket number)
    .ok { h with files }

def lookupFile (h : Host) (path : String) : Except IoError FileEntry := do
  h.files.lookup (← FilePath.parse path)

def readFile (h : Host) (path : String) : Except IoError Bytes := do
  h.files.read (← FilePath.parse path)

def removeFile (h : Host) (path : String) : Except IoError Host := do
  .ok { h with files := ← h.files.remove (← FilePath.parse path) }

end Host

end FrameIntake
