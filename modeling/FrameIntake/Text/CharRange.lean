/-!
Sets of characters as ranges of code points. The ranges of a set ascend, so a search ends at the first
that begins behind the character.
-/

namespace FrameIntake.Text

/-- Closed ranges of code points. -/
abbrev CharRanges := List (Nat × Nat)

namespace CharRanges

/-- Whether one of the ranges holds a code point. The ranges have to ascend. -/
def has (code : Nat) : CharRanges → Bool
  | [] => false
  | (first, last) :: rest => first ≤ code && (code ≤ last || has code rest)

end CharRanges

end FrameIntake.Text
