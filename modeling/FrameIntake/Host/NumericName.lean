import FrameIntake.Text.Number
import FrameIntake.Text.Split

/-!
Host names that are numbers: one to four parts between dots, each decimal, octal behind a zero, or
hexadecimal behind a zero and an x. A part stands for one octet, the last one for all that are left.
-/

namespace FrameIntake.NumericName

def isOctal (c : Char) : Bool := '0' ≤ c && c ≤ '7'

/-- A run of digits of a base, for a number that four octets hold. -/
def digits? (base : Nat) (isDigit : Char → Bool) (cs : List Char) : Option Nat :=
  if !cs.isEmpty && cs.all isDigit then Text.valueBelow? base 4294967296 cs else none

def part? (cs : List Char) : Option Nat :=
  match cs with
  | '0' :: 'x' :: digits => digits? 16 Text.isHexadecimal digits
  | '0' :: 'X' :: digits => digits? 16 Text.isHexadecimal digits
  | '0' :: _ => digits? 8 isOctal cs
  | _ => digits? 10 Text.isDecimal cs

/-- How many numbers `count` octets can hold. -/
def limit : Nat → Nat
  | 0 => 1
  | count + 1 => 256 * limit count

/-- The octets of a number, the last `count` of them. -/
def octetsOf (n : Nat) : Nat → List Nat
  | 0 => []
  | count + 1 => octetsOf (n / 256) count ++ [n % 256]

/-- The octets of the parts, where `left` octets are left for them. -/
def join? : Nat → List Nat → Option (List Nat)
  | left + 1, [n] => if n < limit (left + 1) then some (octetsOf n (left + 1)) else none
  | left + 1, n :: rest => if n < 256 then (join? left rest).map (n :: ·) else none
  | _, _ => none

def octets? (name : List Char) : Option (List Nat) :=
  ((Text.splitAll '.' name).mapM part?).bind (join? 4)

end FrameIntake.NumericName
