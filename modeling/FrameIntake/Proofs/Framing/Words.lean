import FrameIntake.Framing.LengthPrefix
import FrameIntake.Text.Number

/-!
The steps of a machine, which can fault: a sum that no word holds, a difference below zero, a part of a
byte string that reaches beyond it. A fault is `none`. Where a step has its preconditions it comes to what
the same step does on numbers and lists that know no limits.
-/

namespace FrameIntake

namespace Word

def add? (a b : Nat) : Option Nat := if a + b < wordLimit then some (a + b) else none

def sub? (a b : Nat) : Option Nat := if b ≤ a then some (a - b) else none

def mul? (a b : Nat) : Option Nat := if a * b < wordLimit then some (a * b) else none

/-- A word has 64 bits, and a shift by all of them is none. -/
def shiftRight? (a places : Nat) : Option Nat := if places < 64 then some (a >>> places) else none

variable {a b : Nat}

theorem add?_of_lt (h : a + b < wordLimit) : add? a b = some (a + b) := if_pos h

theorem add?_of_le (h : wordLimit ≤ a + b) : add? a b = none := if_neg (Nat.not_lt.mpr h)

theorem sub?_of_le (h : b ≤ a) : sub? a b = some (a - b) := if_pos h

theorem mul?_of_lt (h : a * b < wordLimit) : mul? a b = some (a * b) := if_pos h

theorem shiftRight?_of_lt (h : b < 64) : shiftRight? a b = some (a >>> b) := if_pos h

end Word

namespace Bytes

/-- The bytes from `start` to before `stop`. -/
def slice? (bs : Bytes) (start stop : Nat) : Option Bytes :=
  if start ≤ stop ∧ stop ≤ bs.length then some ((bs.take stop).drop start) else none

/-- Writes `field` to the places from `start` to before `stop`, of which there have to be as many. -/
def overwrite? (bs field : Bytes) (start stop : Nat) : Option Bytes :=
  if start ≤ stop ∧ stop ≤ bs.length ∧ field.length = stop - start then
    some (bs.take start ++ field ++ bs.drop stop)
  else none

/-- Reads a decimal word, one digit at a time. Without a result the number is too large. -/
def word? (digits : Bytes) : Option Nat :=
  digits.foldlM (fun n b => (Word.mul? 10 n).bind fun m => Word.add? m (b.toNat - 48)) 0

variable {start stop n : Nat}

theorem slice?_of_le {bs : Bytes} (h : start ≤ stop) (h' : stop ≤ bs.length) :
    bs.slice? start stop = some ((bs.take stop).drop start) := if_pos ⟨h, h'⟩

theorem slice?_from (bs : Bytes) (h : n ≤ bs.length) : bs.slice? n bs.length = some (bs.drop n) := by
  rw [slice?_of_le h (Nat.le_refl _), List.take_length]

theorem slice?_to (bs : Bytes) (h : n ≤ bs.length) : bs.slice? 0 n = some (bs.take n) := by
  rw [slice?_of_le (Nat.zero_le n) h, List.drop_zero]

theorem overwrite?_of_length (bs field : Bytes) (h : start ≤ stop) (h' : stop ≤ bs.length)
    (fits : field.length = stop - start) :
    bs.overwrite? field start stop = some (bs.take start ++ field ++ bs.drop stop) :=
  if_pos ⟨h, h', fits⟩

/-- A product that no word holds makes a sum that no word holds. -/
theorem add?_of_mul? (n digit : Nat) :
    ((Word.mul? 10 n).bind fun m => Word.add? m digit) =
      if 10 * n + digit < wordLimit then some (10 * n + digit) else none := by
  unfold Word.mul?
  by_cases product : 10 * n < wordLimit
  · rw [if_pos product]
    rfl
  · rw [if_neg product, if_neg (by omega)]
    rfl

/-- The digits are read to the end exactly if a word holds their number. -/
theorem word?_eq (digits : Bytes) :
    word? digits = if decimal digits < wordLimit then some (decimal digits) else none := by
  unfold word?
  simp only [add?_of_mul?]
  rw [Text.foldlM_below (by decide) (fun b : UInt8 => b.toNat - 48) digits (by decide),
    Option.filter_some]
  simp only [decide_eq_true_eq]
  rfl

end Bytes

namespace LengthPrefix

/-- Reads the prefix through a word of eight bytes, into which the bytes are written that there are. -/
def machineRead? (p : LengthPrefix) (bs : Bytes) : Option (Option Nat) :=
  if bs.length < p.width.bytes then some none
  else do
    let field := bs.take p.width.bytes
    let word : Bytes := List.replicate 8 0
    match p.order with
    | .little => do
      let word ← word.overwrite? field 0 field.length
      some (some (ofLittle word))
    | .big => do
      let word ← word.overwrite? field (← Word.sub? 8 field.length) 8
      some (some (ofLittle word.reverse))

theorem ofLittle_replicate (n : Nat) : ofLittle (List.replicate n 0) = 0 := by
  induction n with
  | zero => rfl
  | succ n ih =>
    have step : ofLittle (List.replicate (n + 1) 0) = 0 + 256 * ofLittle (List.replicate n 0) := rfl
    rw [step, ih]

/-- Zeros behind the bytes that weigh most add nothing. -/
theorem ofLittle_append_replicate (bs : Bytes) (n : Nat) :
    ofLittle (bs ++ List.replicate n 0) = ofLittle bs := by
  induction bs with
  | nil => exact ofLittle_replicate n
  | cons b bs ih =>
    have step (rest : Bytes) : ofLittle (b :: rest) = b.toNat + 256 * ofLittle rest := rfl
    rw [List.cons_append, step, step, ih]

theorem machineRead?_eq (p : LengthPrefix) (bs : Bytes) : p.machineRead? bs = some (p.read? bs) := by
  unfold machineRead? read?
  simp only [Bytes.isShorterThan_iff]
  split
  · rfl
  · rename_i enough
    have small : (bs.take p.width.bytes).length ≤ 8 := by
      have := p.width.bytes_le
      rw [List.length_take]
      omega
    generalize bs.take p.width.bytes = field at small ⊢
    have word : (List.replicate 8 (0 : UInt8)).length = 8 := rfl
    cases p.order with
    | little =>
      have written := Bytes.overwrite?_of_length (List.replicate 8 0) field
        (Nat.zero_le field.length) (word ▸ small) rfl
      simp only [written, Option.bind_eq_bind, Option.bind_some, List.take_zero, List.nil_append,
        List.drop_replicate, ofLittle_append_replicate]
    | big =>
      have written := Bytes.overwrite?_of_length (List.replicate 8 0) field
        (Nat.sub_le 8 field.length) (Nat.le_of_eq word.symm) (by omega)
      simp only [Word.sub?_of_le small, written, Option.bind_eq_bind, Option.bind_some,
        List.take_replicate, List.drop_replicate, Nat.sub_self, List.replicate_zero,
        List.append_nil, List.reverse_append, List.reverse_replicate, ofLittle_append_replicate]

end LengthPrefix

end FrameIntake
