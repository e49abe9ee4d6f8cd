import NumCheck.Check.Log
import NumCheck.Check.Walk
import NumCheck.Command.Options
import NumCheck.Command.Storage
import NumCheck.Report
import NumCheck.Syntax.Parser
import NumCheck.Text.Utf8
import NumCheck.Typed.Listing

/-!
# The command

The command reads a source, parses and checks it, and reports what it finds: as text on the
error stream, or as one JSON object on the output. Its exit status is 0 if nothing is wrong,
the status of the diagnostic otherwise, and 2 if it is used in a wrong way.
-/

namespace NumCheck.Command

/-- What the command leaves behind. -/
structure Output where
  /-- The exit status. -/
  exit : Nat
  /-- What it writes to the output. -/
  stdout : String := ""
  /-- What it writes to the error stream. -/
  stderr : String := ""
  deriving DecidableEq, Repr

/-- A source that cannot even be looked at. -/
inductive Fault where
  /-- The path holds a character that no path can have. -/
  | badPath
  /-- The file is not text. -/
  | notText
  deriving DecidableEq, Repr

/-! ### Help -/

/-- How the command is used, on one line. -/
def usage : String := "usage: numc [-h] [--json] [--accumulate] [--dump-typed] [-v] source\n"

/-- How the command is used. -/
def helpText : String :=
  usage ++
  "\n" ++
  "numc: numlang parser and type checker\n" ++
  "\n" ++
  "positional arguments:\n" ++
  "  source         numlang source file\n" ++
  "\n" ++
  "options:\n" ++
  "  -h, --help     show this help message and exit\n" ++
  "  --json         Emit diagnostics as JSON on stdout\n" ++
  "  --accumulate   Keep checking after a failure and report every independent\n" ++
  "                 diagnostic\n" ++
  "  --dump-typed   Print the typed tree on success\n" ++
  "  -v, --verbose  Log checker internals to stderr\n"

/-- The output for a command that is used in a wrong way. -/
def misuse (e : UsageError) : Output where
  exit := 2
  stderr := usage ++ s!"numc: error: {e.message}\n"

/-! ### Results -/

/-- The JSON object of a result. -/
def resultJson (exit : Nat) (diagnostics : List Json) : String :=
  (Json.obj [("exit_code", .int exit), ("diagnostics", .arr diagnostics)]).render ++ "\n"

/-- The output for a file that cannot be read. -/
def unreadable (o : Options) (path : String) (e : ReadError) : Output :=
  let message := s!"cannot read {path}: {e.message}"
  if o.json then
    { exit := 1
      stdout := resultJson 1 [.obj [("phase", .str "driver"), ("message", .str message),
        ("severity", .str "error"), ("file", .str path), ("line", .null), ("column", .null),
        ("labels", .arr []), ("notes", .arr [])]] }
  else { exit := 1, stderr := s!"error: {message}\n" }

/-- The output for a source that is wrong, as found out in the given phase. Each problem is
reported with its own code. -/
def rejected (o : Options) (path source phase : String) (d : Diagnostic) : Output :=
  if o.json then
    { exit := d.exitStatus
      stdout := resultJson d.exitStatus
        (d.leaves.map fun p => p.report.toJson p.code phase source path) }
  else
    { exit := d.exitStatus
      stderr := String.join (d.leaves.map fun p => p.report.render p.code source path ++ "\n") }

/-- The output for a source that is right. -/
def accepted (o : Options) (p : Typed.Program) : Output :=
  if o.json then { exit := 0, stdout := resultJson 0 [] }
  else if o.dumpTyped then
    match p.listing with
    | .ok text => { exit := 0, stdout := text ++ "\n" }
    | .error _ => { exit := 0 }
  else { exit := 0 }

/-- A line of the log. -/
def logLine (origin message : String) : String := s!"DEBUG {origin}: {message}\n"

/-- The output for a source. The command's own log lines come from `origin`. -/
def checkSource (origin : String) (o : Options) (path source : String) : Output :=
  match Program.ofSource source with
  | .error p => rejected o path source "parser" (.one p)
  | .ok program =>
    let mode := if o.accumulate then .accumulate else .failFast
    let outcome := Check.check .standard mode program
    let output := match outcome.result with
      | .ok (.ok typed) => accepted o typed
      | .ok (.error d) => rejected o path source "typecheck" d
      | .error _ => { exit := 1 }
    if o.verbose then
      let parsed := logLine origin s!"parsed {path}: {program.statements.length} statements"
      let log := outcome.final.log.toList.map fun e => logLine e.origin e.message
      { output with stderr := parsed ++ String.join log ++ output.stderr }
    else output

/-- The output for the source at a path, as it was read from there. -/
def checkFile (origin : String) (o : Options) (path : Path)
    (content : Except ReadError ByteArray) : Except Fault Output :=
  match content with
  | .error e => .ok (unreadable o path.render e)
  | .ok bytes =>
    match Text.ofBytes? bytes with
    | none => .error .notText
    | some source => .ok (checkSource origin o path.render source)

/-- Run the command on arguments, with a way to read files. -/
def run (origin : String) (arguments : List String)
    (read : Path → Except ReadError ByteArray) : Except Fault Output :=
  match Invocation.ofArguments arguments with
  | .help => .ok { exit := 0, stdout := helpText }
  | .misuse e => .ok (misuse e)
  | .check source o =>
    let path := Path.ofString source
    if source.toList.contains '\x00' then .error .badPath
    else checkFile origin o path (read path)

end NumCheck.Command
