import FrameIntake.Connection.Session
import FrameIntake.Options.Load

/-!
The command line. Options are loaded and checked, and then standard input is served as one connection:
whole frames go to standard output as they arrive, the log goes to standard error.
-/

namespace FrameIntake

/-- The most bytes that one read takes. -/
def readSize : USize := 8192

def failureOf (e : IO.Error) : IoError :=
  match e with
  | .noFileOrDirectory .. => .noSuchFile
  | _ => ⟨.other, toString e⟩

def readOptionFile (a : Arguments) : IO (Except IoError Bytes) :=
  match a.config with
  | none => return .ok []
  | some path =>
    try
      return .ok (← IO.FS.readBinFile path).toList
    catch e =>
      return .error (failureOf e)

/-- Serves one connection from chunk to chunk. -/
partial def serve (input output log : IO.FS.Stream) (s : Session) : IO Unit := do
  let (messages, s) := s.settle.receiveUnbounded
  for m in messages do
    output.write ⟨m.payload.toArray⟩
    output.flush
  let (notices, s) := s.collect
  for line in notices.flatMap Notice.lines do
    log.putStrLn line
  if s.connection.isEnded then return
  let chunk ← input.read readSize
  serve input output log (s.arrive (.data chunk.toList))

def complain (text : String) : IO UInt32 := do
  (← IO.getStderr).putStrLn text
  return 1

def tell (text : String) : IO UInt32 := do
  (← IO.getStdout).putStrLn text
  return 0

def run (a : Arguments) : IO UInt32 := do
  let file ← readOptionFile a
  match Options.load a fun _ => file with
  | .error e => complain e.message
  | .ok options =>
    match options.validate with
    | .error problems => complain (Problem.summary problems)
    | .ok config =>
      let connection := Connection.start 0 "stdin" config.partitioner config.stream
      serve (← IO.getStdin) (← IO.getStdout) (← IO.getStderr) { connection }
      return 0

end FrameIntake

open FrameIntake in
def main (arguments : List String) : IO UInt32 :=
  match CommandLine.parse arguments with
  | .ok a => run a
  | .error .showHelp => tell (Refusal.message .showHelp)
  | .error .showVersion => tell (Refusal.message .showVersion)
  | .error refusal => complain refusal.message
