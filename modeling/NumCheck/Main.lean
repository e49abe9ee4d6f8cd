import NumCheck.Command.Run

/-!
# The program

Runs the command on the files and streams of the system.
-/

namespace NumCheck.Command

/-- What an error of the system means for reading a file. -/
def ReadError.ofSystem : IO.Error → ReadError
  | .noFileOrDirectory .. => .noSuchFile
  | .inappropriateType .. => .isDirectory
  | e => .other (toString e)

/-- Read a file. -/
def readFile (path : Path) : IO (Except ReadError ByteArray) := do
  try
    return .ok (← IO.FS.readBinFile path.render)
  catch e =>
    return .error (.ofSystem e)

end NumCheck.Command

open NumCheck NumCheck.Command

/-- Run the command, reading the file that it asks for. -/
def main (arguments : List String) : IO UInt32 := do
  let content ← match Invocation.ofArguments arguments with
    | .check source _ => readFile (Path.ofString source)
    | _ => pure (.error .noSuchFile)
  match run "numlang.numc" arguments fun _ => content with
  | .ok output =>
    IO.print output.stdout
    IO.eprint output.stderr
    return output.exit.toUInt32
  | .error .badPath =>
    IO.eprintln "numc: the path holds a null character"
    return 1
  | .error .notText =>
    IO.eprintln "numc: the file is not valid UTF-8"
    return 1
