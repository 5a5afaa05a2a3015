import FrameIntake.Framing.LengthPrefix

/-!
The framing strategies and the values that choose among them. A delimiter is never empty and a fixed
size never zero, so every frame that is found takes at least one byte.
-/

namespace FrameIntake

inductive PartitionerKind
  | delimiter | ascii | binary | binaryBigEndian | fixed
  deriving DecidableEq, Repr

namespace PartitionerKind

def name : PartitionerKind → String
  | delimiter => "delimiter"
  | ascii => "ascii"
  | binary => "binary"
  | binaryBigEndian => "binary_be"
  | fixed => "fixed"

/-- Reads a kind's name in any ASCII case. Little-endian `binary` has a second name. -/
def ofName? (text : String) : Option PartitionerKind :=
  match text.map Char.toLower with
  | "delimiter" => some delimiter
  | "ascii" => some ascii
  | "binary" => some binary
  | "binary_le" => some binary
  | "binary_be" => some binaryBigEndian
  | "fixed" => some fixed
  | _ => none

end PartitionerKind

structure Delimiter where
  bytes : Bytes
  nonempty : bytes ≠ []
  deriving DecidableEq, Repr

namespace Delimiter

def ofBytes? (bytes : Bytes) : Option Delimiter :=
  if h : bytes = [] then none else some ⟨bytes, h⟩

def size (d : Delimiter) : Nat := d.bytes.length

theorem size_pos (d : Delimiter) : 0 < d.size := List.length_pos_iff.mpr d.nonempty

end Delimiter

/-- How a byte stream is cut into frames. `max` is the ceiling on a frame's payload. -/
inductive Partitioner
  /-- Frames end with the delimiter. -/
  | delimiter (mark : Delimiter) (max : Nat)
  /-- First `offset` bytes, a decimal length, the delimiter, then the payload. -/
  | ascii (offset : Nat) (mark : Delimiter) (max : Nat)
  /-- First `offset` bytes, a binary length, then the payload. -/
  | binary (offset : Nat) (lengths : LengthPrefix) (max : Nat)
  /-- Every frame has the same size. -/
  | fixed (size : Nat) (positive : 0 < size)
  deriving DecidableEq, Repr

namespace Partitioner

/-- The ceiling where none is asked for, 16 MiB. -/
def defaultMax : Nat := 16 * 1024 * 1024

def kind : Partitioner → PartitionerKind
  | delimiter .. => .delimiter
  | ascii .. => .ascii
  | binary _ lengths _ =>
    match lengths.order with
    | .little => .binary
    | .big => .binaryBigEndian
  | fixed .. => .fixed

/-- Replaces the ceiling. A fixed size is its own ceiling and stays. -/
def withMax (max : Nat) : Partitioner → Partitioner
  | delimiter mark _ => delimiter mark max
  | ascii offset mark _ => ascii offset mark max
  | binary offset lengths _ => binary offset lengths max
  | fixed size positive => fixed size positive

def fixed? (size : Nat) : Option Partitioner :=
  if h : 0 < size then some (fixed size h) else none

end Partitioner

end FrameIntake
