import FrameIntake.Bytes
import FrameIntake.Text.Number

/-!
Delimiters are written with backslash escapes. A plain character stands for its UTF-8 bytes and an
escape for one byte.
-/

namespace FrameIntake

/-- The first part of a text that is no escape. -/
structure EscapeError where
  sequence : String
  deriving DecidableEq, Repr

namespace EscapeError

def message (e : EscapeError) : String := s!"invalid escape sequence: {e.sequence}"

end EscapeError

namespace Escape

/-- The byte that a one-character escape stands for. -/
def named? : Char → Option UInt8
  | 'n' => some 10
  | 'r' => some 13
  | 't' => some 9
  | '0' => some 0
  | '\\' => some 92
  | '"' => some 34
  | '\'' => some 39
  | _ => none

/-- The byte of two hexadecimal digits. -/
def hexByte? (a b : Char) : Option UInt8 :=
  if Text.isHexadecimal a && Text.isHexadecimal b then
    some (UInt8.ofNat (16 * Text.digitValue a + Text.digitValue b))
  else none

/-- Decodes a text, or names the first sequence that is no escape. `\x` takes the next two characters
whatever they are. -/
def decode : List Char → Except EscapeError Bytes
  | [] => .ok []
  | ['\\'] => .error ⟨"\\"⟩
  | ['\\', 'x'] => .error ⟨"\\x"⟩
  | ['\\', 'x', a] => .error ⟨String.ofList ['\\', 'x', a]⟩
  | '\\' :: 'x' :: a :: b :: rest =>
    match hexByte? a b with
    | some byte => (decode rest).map (byte :: ·)
    | none => .error ⟨String.ofList ['\\', 'x', a, b]⟩
  | '\\' :: c :: rest =>
    match named? c with
    | some byte => (decode rest).map (byte :: ·)
    | none => .error ⟨String.ofList ['\\', c]⟩
  | c :: rest => (decode rest).map (String.utf8EncodeChar c ++ ·)

def unescape (text : String) : Except EscapeError Bytes := decode text.toList

end Escape

end FrameIntake
