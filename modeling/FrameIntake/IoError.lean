/-!
Failures of reads, writes, files and sockets: a kind to decide on and a text to show.
-/

namespace FrameIntake

inductive IoKind
  | notFound | permissionDenied | connectionRefused | connectionReset | hostUnreachable
  | networkUnreachable | connectionAborted | notConnected | addrInUse | addrNotAvailable
  | networkDown | brokenPipe | alreadyExists | wouldBlock | notADirectory | isADirectory
  | directoryNotEmpty | invalidFilename | invalidInput | invalidData | timedOut | writeZero
  | interrupted | unsupported | unexpectedEof | outOfMemory | other
  /-- A cause of the operating system that belongs to no other kind. -/
  | uncategorized
  deriving DecidableEq, Repr

namespace IoKind

def name : IoKind → String
  | notFound => "NotFound"
  | permissionDenied => "PermissionDenied"
  | connectionRefused => "ConnectionRefused"
  | connectionReset => "ConnectionReset"
  | hostUnreachable => "HostUnreachable"
  | networkUnreachable => "NetworkUnreachable"
  | connectionAborted => "ConnectionAborted"
  | notConnected => "NotConnected"
  | addrInUse => "AddrInUse"
  | addrNotAvailable => "AddrNotAvailable"
  | networkDown => "NetworkDown"
  | brokenPipe => "BrokenPipe"
  | alreadyExists => "AlreadyExists"
  | wouldBlock => "WouldBlock"
  | notADirectory => "NotADirectory"
  | isADirectory => "IsADirectory"
  | directoryNotEmpty => "DirectoryNotEmpty"
  | invalidFilename => "InvalidFilename"
  | invalidInput => "InvalidInput"
  | invalidData => "InvalidData"
  | timedOut => "TimedOut"
  | writeZero => "WriteZero"
  | interrupted => "Interrupted"
  | unsupported => "Unsupported"
  | unexpectedEof => "UnexpectedEof"
  | outOfMemory => "OutOfMemory"
  | other => "Other"
  | uncategorized => "Uncategorized"

def all : List IoKind :=
  [notFound, permissionDenied, connectionRefused, connectionReset, hostUnreachable,
    networkUnreachable, connectionAborted, notConnected, addrInUse, addrNotAvailable,
    networkDown, brokenPipe, alreadyExists, wouldBlock, notADirectory, isADirectory,
    directoryNotEmpty, invalidFilename, invalidInput, invalidData, timedOut, writeZero,
    interrupted, unsupported, unexpectedEof, outOfMemory, other, uncategorized]

def ofName? (name : String) : Option IoKind :=
  all.find? (·.name == name)

end IoKind

structure IoError where
  kind : IoKind
  message : String
  deriving DecidableEq, Repr

/-- A failure of the operating system, whose text ends with the number of its cause. -/
def IoError.ofSystem (kind : IoKind) (text : String) (number : Nat) : IoError :=
  ⟨kind, s!"{text} (os error {number})"⟩

namespace IoError

def noSuchFile : IoError := ofSystem .notFound "No such file or directory" 2
def noSuchDeviceOrAddress : IoError := ofSystem .uncategorized "No such device or address" 6
def noSuchDevice : IoError := ofSystem .uncategorized "No such device" 19
def notADirectory : IoError := ofSystem .notADirectory "Not a directory" 20
def isADirectory : IoError := ofSystem .isADirectory "Is a directory" 21
def invalidArgument : IoError := ofSystem .invalidInput "Invalid argument" 22
def fileNameTooLong : IoError := ofSystem .invalidFilename "File name too long" 36
def addressInUse : IoError := ofSystem .addrInUse "Address already in use" 98
def addressNotAvailable : IoError :=
  ofSystem .addrNotAvailable "Cannot assign requested address" 99
def networkUnreachable : IoError := ofSystem .networkUnreachable "Network is unreachable" 101

/-- The system takes names up to the first NUL, so one that holds a NUL never reaches it. -/
def nameHoldsNul : IoError := ⟨.invalidInput, "file name contained an unexpected NUL byte"⟩

end IoError

end FrameIntake
