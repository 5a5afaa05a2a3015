import FrameIntake.Text.Extending
import FrameIntake.Text.Shapeless

/-!
A text in double quotes, for log records. Quotes, backslashes and what could not be seen by itself are
written as escapes.
-/

namespace FrameIntake.Text.Quoted

/-- Sound marks of half width. They extend the letter before them but take a place of their own. -/
def soundMarks : List Char := ['\uff9e', '\uff9f']

/-- Letters that fill the place of one that is missing, and show nothing. -/
def fillers : List Char := ['\u115f', '\u1160', '\u3164', '\uffa0']

/-- Shows nothing by itself, or shows only as part of the character before it. -/
def isInvisible (c : Char) : Bool :=
  shapeless.has c.toNat || (extending.has c.toNat && !soundMarks.contains c) || fillers.contains c

def escapeChar (c : Char) : List Char :=
  match c with
  | '"' => ['\\', '"']
  | '\\' => ['\\', '\\']
  | '\n' => ['\\', 'n']
  | '\r' => ['\\', 'r']
  | '\t' => ['\\', 't']
  | '\x00' => ['\\', '0']
  | c => if isInvisible c then ['\\', 'u', '\x7b'] ++ Nat.toDigits 16 c.toNat ++ ['\x7d'] else [c]

def encode (text : String) : String :=
  "\"" ++ String.ofList (text.toList.flatMap escapeChar) ++ "\""

end FrameIntake.Text.Quoted
