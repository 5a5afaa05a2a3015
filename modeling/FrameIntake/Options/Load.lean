import FrameIntake.Bytes
import FrameIntake.IoError
import FrameIntake.Options.CommandLine
import FrameIntake.Options.Document

/-!
The options of a command line, with those of the file that it names behind them.
-/

namespace FrameIntake

inductive LoadError
  | file (error : IoError)
  /-- The file is no document of options. -/
  | document
  deriving DecidableEq, Repr

def LoadError.message : LoadError → String
  | file e => e.message
  | document => "invalid option file"

namespace Options

def notText : IoError := ⟨.invalidData, "stream did not contain valid UTF-8"⟩

/-- Reads an option file from its bytes. -/
def ofFile (content : Bytes) : Except LoadError Options :=
  match String.fromUTF8? ⟨content.toArray⟩ with
  | none => .error (.file notText)
  | some text => (Document.options? text).elim (.error .document) .ok

/-- The options that arguments ask for, given a way to read files. -/
def load (a : Arguments) (readFile : String → Except IoError Bytes) : Except LoadError Options :=
  match a.config with
  | none => .ok (a.override {})
  | some path =>
    match readFile path with
    | .error e => .error (.file e)
    | .ok content => (ofFile content).map a.override

end Options

end FrameIntake
