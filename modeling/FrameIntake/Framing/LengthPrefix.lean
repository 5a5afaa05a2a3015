import FrameIntake.Bytes
import FrameIntake.IoError

/-!
A length written as a fixed number of bytes. Both byte orders go through `ofLittle` and `toLittle`,
the positional value of a byte string whose first byte weighs least.
-/

namespace FrameIntake

inductive Width
  | u8 | u16 | u32 | u64
  deriving DecidableEq, Repr

namespace Width

def bytes : Width → Nat
  | u8 => 1
  | u16 => 2
  | u32 => 4
  | u64 => 8

def ofSize? : Int → Option Width
  | 1 => some u8
  | 2 => some u16
  | 4 => some u32
  | 8 => some u64
  | _ => none

theorem bytes_pos (w : Width) : 0 < w.bytes := by cases w <;> decide

theorem bytes_le (w : Width) : w.bytes ≤ 8 := by cases w <;> decide

theorem ofSize?_bytes (w : Width) : ofSize? w.bytes = some w := by cases w <;> rfl

end Width

inductive ByteOrder
  | little | big
  deriving DecidableEq, Repr

def ByteOrder.name : ByteOrder → String
  | little => "little"
  | big => "big"

/-- How the length of a frame is written in front of it. -/
structure LengthPrefix where
  width : Width
  order : ByteOrder
  deriving DecidableEq, Repr

namespace LengthPrefix

def u32Little : LengthPrefix := ⟨.u32, .little⟩

def u32Big : LengthPrefix := ⟨.u32, .big⟩

def ofLittle (bs : Bytes) : Nat :=
  bs.foldr (fun b n => b.toNat + 256 * n) 0

def toLittle : Nat → Nat → Bytes
  | 0, _ => []
  | width + 1, n => UInt8.ofNat (n % 256) :: toLittle width (n / 256)

/-- The numbers that a run of bytes can hold are those below this. -/
def bound : Nat → Nat
  | 0 => 1
  | width + 1 => 256 * bound width

/-- The length at the front of `bs`, or nothing while the prefix is incomplete. -/
def read? (p : LengthPrefix) (bs : Bytes) : Option Nat :=
  if bs.isShorterThan p.width.bytes then none
  else
    let field := bs.take p.width.bytes
    some <| match p.order with
      | .little => ofLittle field
      | .big => ofLittle field.reverse

/-- The bytes of `n`, or nothing if `n` needs more than the width has. -/
def encode? (p : LengthPrefix) (n : Nat) : Option Bytes :=
  if n < bound p.width.bytes then
    some <| match p.order with
      | .little => toLittle p.width.bytes n
      | .big => (toLittle p.width.bytes n).reverse
  else none

def doesNotFit : IoError := ⟨.invalidInput, "length does not fit prefix"⟩

/-- Puts the bytes of `n` behind `dst`. -/
def append? (p : LengthPrefix) (n : Nat) (dst : Bytes) : Option Bytes :=
  (p.encode? n).map (dst ++ ·)

theorem ofLittle_lt (bs : Bytes) : ofLittle bs < bound bs.length := by
  induction bs with
  | nil => simp [ofLittle, bound]
  | cons b bs ih =>
    have hb := b.toNat_lt
    simp only [ofLittle, List.foldr_cons, List.length_cons, bound] at *
    omega

theorem length_toLittle (width n : Nat) : (toLittle width n).length = width := by
  induction width generalizing n with
  | zero => rfl
  | succ width ih => simp [toLittle, ih]

theorem ofLittle_toLittle (width n : Nat) : ofLittle (toLittle width n) = n % bound width := by
  induction width generalizing n with
  | zero => simp [toLittle, ofLittle, bound]; omega
  | succ width ih =>
    have hs : ofLittle (toLittle (width + 1) n) =
        n % 256 + 256 * ofLittle (toLittle width (n / 256)) := by
      simp [toLittle, ofLittle]
    rw [hs, ih, bound, Nat.mod_mul]

theorem toLittle_ofLittle (bs : Bytes) : toLittle bs.length (ofLittle bs) = bs := by
  induction bs with
  | nil => rfl
  | cons b bs ih =>
    have hb := b.toNat_lt
    have hv : ofLittle (b :: bs) = b.toNat + 256 * ofLittle bs := rfl
    have hm : ofLittle (b :: bs) % 256 = b.toNat := by omega
    have hd : ofLittle (b :: bs) / 256 = ofLittle bs := by omega
    simp [toLittle, hm, hd, ih]

theorem read?_eq_none_iff {p : LengthPrefix} {bs : Bytes} :
    p.read? bs = none ↔ bs.length < p.width.bytes := by
  unfold read?
  split <;> simp_all

end LengthPrefix

end FrameIntake
