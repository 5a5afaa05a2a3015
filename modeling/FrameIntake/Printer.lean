import FrameIntake.Message
import FrameIntake.Notice

/-!
Printing messages: every payload is written whole and followed by a flush. An outlet may take fewer bytes
than it is offered and may fail; the first failure ends the printing, and then nobody receives the messages.
-/

namespace FrameIntake

/-- Something asked of an outlet, with its answer. -/
inductive Outlet.Act
  /-- It took the first `count` of the bytes that it was offered. -/
  | took (offered : Bytes) (count : Nat)
  | refused (offered : Bytes) (error : IoError)
  | flushed
  | unflushed (error : IoError)
  deriving DecidableEq, Repr

/-- Where bytes go. What it answers may depend on all that was asked of it before, the latest in front. -/
structure Outlet where
  /-- How many of the bytes that it is offered it takes. -/
  write : List Outlet.Act → Bytes → Except IoError Nat
  flush : List Outlet.Act → Except IoError Unit

namespace Outlet

namespace Act

/-- The bytes that the outlet has from it. -/
def bytes : Act → Bytes
  | took offered count => offered.take count
  | _ => []

def isWrite : Act → Bool
  | took .. | refused .. => true
  | _ => false

def isFlush (a : Act) : Bool := !a.isWrite

end Act

def noProgress : IoError := ⟨.writeZero, "write zero"⟩

/-- Writes until all bytes are taken. A write that takes none is a failure. -/
def writeAll (o : Outlet) (past : List Act) (bytes : Bytes) : Except IoError Unit × List Act :=
  if bytes.isEmpty then (.ok (), past)
  else
    match o.write past bytes with
    | .error e => (.error e, .refused bytes e :: past)
    | .ok 0 => (.error noProgress, .took bytes 0 :: past)
    | .ok (count + 1) =>
      o.writeAll (.took bytes (count + 1) :: past) (bytes.drop (count + 1))
termination_by bytes.length
decreasing_by
  have : bytes ≠ [] := by simp_all
  have := List.length_pos_iff.mpr this
  simp only [List.length_drop]
  omega

/-- Prints one message. -/
def print (o : Outlet) (past : List Act) (payload : Bytes) : Except IoError Unit × List Act :=
  match o.writeAll past payload with
  | (.error e, past) => (.error e, past)
  | (.ok (), past) =>
    match o.flush past with
    | .error e => (.error e, .unflushed e :: past)
    | .ok () => (.ok (), .flushed :: past)

/-- Prints messages up to the first failure. -/
def printAll (o : Outlet) (past : List Act) : List Bytes → Except IoError Unit × List Act
  | [] => (.ok (), past)
  | payload :: rest =>
    match o.print past payload with
    | (.error e, past) => (.error e, past)
    | (.ok (), past) => o.printAll past rest

/-- A failure is given notice of. -/
def notices : Except IoError Unit → List Notice
  | .ok () => []
  | .error e => [.outputClosed e]

/-- A sink whose messages were printed. -/
structure Printed where
  sink : Sink
  past : List Act
  notices : List Notice

/-- Receives the messages of a sink and prints them. A failure closes the receiving end. -/
def serve (o : Outlet) (past : List Act) (s : Sink) : Printed :=
  let (messages, s) := s.receive s.sent.length
  let (result, past) := o.printAll past (messages.map Message.payload)
  { sink := match result with
      | .ok () => s
      | .error _ => s.close
    past
    notices := notices result }

end Outlet

/-- An outlet that fails at given calls, with what was asked of it so far. -/
structure Writer where
  /-- The most bytes that one write takes. -/
  limit : Option Nat := none
  /-- The number of the write that fails, and of the flush that does. -/
  failingWrite : Option Nat := none
  failingFlush : Option Nat := none
  /-- What was asked of it, the latest in front. -/
  past : List Outlet.Act := []
  deriving DecidableEq, Repr

namespace Writer

open Outlet (Act)

def writeRefused : IoError := ⟨.brokenPipe, "write refused"⟩

def flushRefused : IoError := ⟨.brokenPipe, "flush refused"⟩

def writes (w : Writer) : Nat := w.past.countP Act.isWrite

def flushes (w : Writer) : Nat := w.past.countP Act.isFlush

/-- All that was written, in its order. -/
def written (w : Writer) : Bytes := w.past.reverse.flatMap Act.bytes

def outlet (w : Writer) : Outlet where
  write past offered :=
    if w.failingWrite.any (· = past.countP Act.isWrite + 1) then .error writeRefused
    else .ok ((w.limit.getD offered.length).min offered.length)
  flush past :=
    if w.failingFlush.any (· = past.countP Act.isFlush + 1) then .error flushRefused else .ok ()

/-- Prints messages up to the first failure, and gives notice of that. -/
def printAll (w : Writer) (payloads : List Bytes) : Writer × List Notice :=
  let (result, past) := w.outlet.printAll w.past payloads
  ({ w with past }, Outlet.notices result)

end Writer

end FrameIntake
