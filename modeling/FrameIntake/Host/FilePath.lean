import FrameIntake.IoError
import FrameIntake.Text.Split

/-!
Paths as they are spelled. An empty name and a dot stand for the directory that the names before them
lead to, two dots for the one above it; so a slash at the end asks for a directory.
-/

namespace FrameIntake

structure FilePath where
  /-- The names are followed from the root on, not from the working directory. -/
  fromRoot : Bool
  names : List String
  deriving DecidableEq, Repr

namespace FilePath

/-- The longest name that a file may have, in bytes. -/
def maxNameSize : Nat := 255

/-- The longest path that can be followed, in bytes. -/
def maxSize : Nat := 4095

def parse (text : String) : Except IoError FilePath :=
  if text.toList.contains '\x00' then .error .nameHoldsNul
  else if text.isEmpty then .error .noSuchFile
  else if maxSize < text.utf8ByteSize then .error .fileNameTooLong
  else
    .ok
      { fromRoot := text.toList.head? == some '/'
        names := (Text.splitAll '/' text.toList).map String.ofList }

end FilePath

end FrameIntake
