/-!
Whole numbers as they are written in options and arguments: decimal digits, leading zeros allowed,
behind an optional sign.
-/

namespace FrameIntake.Text

def isDecimal (c : Char) : Bool := '0' ≤ c && c ≤ '9'

def isHexadecimal (c : Char) : Bool :=
  isDecimal c || ('a' ≤ c && c ≤ 'f') || ('A' ≤ c && c ≤ 'F')

/-- The value of a digit, letters counting from ten on in either case. -/
def digitValue (c : Char) : Nat :=
  if isDecimal c then c.toNat - '0'.toNat
  else if 'a' ≤ c then c.toNat - 'a'.toNat + 10
  else c.toNat - 'A'.toNat + 10

def value (base : Nat) (digits : List Char) : Nat :=
  digits.foldl (fun n c => base * n + digitValue c) 0

/-- The value of digits, if it is below `limit`. No more of them are read than it takes to tell. -/
def valueBelow? (base limit : Nat) (digits : List Char) : Option Nat :=
  digits.foldlM
    (fun n c => if base * n + digitValue c < limit then some (base * n + digitValue c) else none) 0

/-- A non-empty run of decimal digits, for a number below `limit`. -/
def natural? (limit : Nat) (cs : List Char) : Option Nat :=
  if !cs.isEmpty && cs.all isDecimal then valueBelow? 10 limit cs else none

/-- A number below `limit`. It may have a plus sign but no minus sign. -/
def unsigned? (limit : Nat) (cs : List Char) : Option Nat :=
  match cs with
  | '+' :: rest => natural? limit rest
  | cs => natural? limit cs

/-- The magnitude of any integer that a signed word of 64 bits holds is below this. -/
def magnitudeLimit : Nat := 9223372036854775809

/-- The integers that a signed word of 64 bits holds. -/
def fitsSigned (n : Int) : Bool := -9223372036854775808 ≤ n && n < 9223372036854775808

/-- A signed word of 64 bits. -/
def signed? (cs : List Char) : Option Int :=
  let number : Option Int := match cs with
    | '+' :: rest => (natural? magnitudeLimit rest).map Int.ofNat
    | '-' :: rest => (natural? magnitudeLimit rest).map fun n => -Int.ofNat n
    | cs => (natural? magnitudeLimit cs).map Int.ofNat
  number.filter fitsSigned

/-- More digits do not make a value smaller. -/
theorem le_foldl_digits {α : Type} {base : Nat} (hb : 0 < base) (digit : α → Nat) (digits : List α)
    (n : Nat) : n ≤ digits.foldl (fun n c => base * n + digit c) n := by
  induction digits generalizing n with
  | nil => exact Nat.le_refl n
  | cons c rest ih =>
    have := Nat.le_mul_of_pos_left n hb
    have := ih (base * n + digit c)
    simp only [List.foldl_cons]
    omega

theorem foldlM_below {α : Type} {base limit : Nat} (hb : 0 < base) (digit : α → Nat)
    (digits : List α) {n : Nat} (hn : n < limit) :
    digits.foldlM (fun n c =>
        if base * n + digit c < limit then some (base * n + digit c) else none) n =
      (some (digits.foldl (fun n c => base * n + digit c) n)).filter (· < limit) := by
  induction digits generalizing n with
  | nil => simp [Option.filter, hn]
  | cons c rest ih =>
    simp only [List.foldlM_cons, List.foldl_cons]
    split
    · exact ih ‹_›
    · have := le_foldl_digits hb digit rest (base * n + digit c)
      simp only [Option.bind_eq_bind, Option.bind_none, Option.filter_some]
      rw [if_neg]
      simp only [decide_eq_true_eq]
      omega

/-- Reading stops early, but at no number below the limit. -/
theorem valueBelow?_eq {base limit : Nat} (hb : 0 < base) (hl : 0 < limit) (digits : List Char) :
    valueBelow? base limit digits = (some (value base digits)).filter (· < limit) :=
  foldlM_below hb digitValue digits hl

end FrameIntake.Text
