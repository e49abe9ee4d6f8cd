import NumCheck.Text.Digit
import NumCheck.Text.Quoted

/-!
# The command line

The command takes the path of a source and flags, in any order. A flag has a long name,
which may be cut short as long as it stays unique, and perhaps a letter; letters may be put
together after one dash. No flag takes a value. After `--` everything is a path.

Arguments are read from left to right. Asking for help ends the reading at once, and so does
a flag with a value. What is left over, and a source that is missing, is complained about at
the end.
-/

namespace NumCheck.Command

/-- The flags. -/
inductive Flag where
  /-- Show how the command is used. -/
  | help
  /-- Write JSON. -/
  | json
  /-- Go on after a failure. -/
  | accumulate
  /-- List the typed tree. -/
  | dumpTyped
  /-- Log what is done. -/
  | verbose
  deriving DecidableEq, Repr

namespace Flag

/-- All flags, in the order in which they are named. -/
def all : List Flag := [.help, .json, .accumulate, .dumpTyped, .verbose]

/-- The long name, with its dashes. -/
def long : Flag → String
  | .help => "--help"
  | .json => "--json"
  | .accumulate => "--accumulate"
  | .dumpTyped => "--dump-typed"
  | .verbose => "--verbose"

/-- The flag of a letter. -/
def ofLetter? (c : Char) : Option Flag :=
  if c = 'h' then some .help else if c = 'v' then some .verbose else none

/-- All names of a flag. -/
def names : Flag → String
  | .help => "-h/--help"
  | .verbose => "-v/--verbose"
  | f => f.long

end Flag

/-- How the command cannot be used. -/
inductive UsageError where
  /-- The argument could stand for more than one flag. -/
  | ambiguous (argument : String) (candidates : List Flag)
  /-- The flag takes no value. -/
  | ignoredValue (flag : Flag) (value : String)
  /-- There is no source. -/
  | sourceMissing
  /-- Arguments that mean nothing. -/
  | unrecognized (arguments : List String)
  deriving DecidableEq, Repr

/-- What is said of a wrong use. -/
def UsageError.message : UsageError → String
  | .ambiguous argument candidates =>
    s!"ambiguous option: {argument} could match " ++ ", ".intercalate (candidates.map Flag.long)
  | .ignoredValue flag value =>
    s!"argument {flag.names}: ignored explicit argument {Text.quote value}"
  | .sourceMissing => "the following arguments are required: source"
  | .unrecognized arguments => "unrecognized arguments: " ++ " ".intercalate arguments

/-- What an argument is. -/
inductive Argument where
  /-- A path, or something that is taken for one. -/
  | positional (text : String)
  /-- Flags. -/
  | flags (flags : List Flag)
  /-- A flag with a value, which it cannot have. -/
  | valued (flag : Flag) (value : String)
  /-- Something that looks like a flag and is none. -/
  | unknown (text : String)
  /-- The mark after which there are only paths. -/
  | separator
  deriving DecidableEq, Repr

namespace Argument

/-- A negative number, such as `-1` or `-.5`. A line feed may follow it. -/
def isNegativeNumber (text : List Char) : Bool :=
  match (if text.getLast? = some '\n' then text.dropLast else text) with
  | '-' :: digits =>
    let rest := digits.dropWhile Text.isDecimalDigit
    if rest.isEmpty then !digits.isEmpty
    else match rest with
      | '.' :: fraction => !fraction.isEmpty && fraction.all Text.isDecimalDigit
      | _ => false
  | _ => false

/-- An argument with a dash that names no flag: a number or a text with a blank is taken for
a path. -/
def ofUnknown (text : String) : Argument :=
  if isNegativeNumber text.toList || text.toList.contains ' ' then .positional text
  else .unknown text

/-- The letters after a flag's own: either all of them are flags, or the rest of them, from
the first that is none, is a value. -/
def ofLetters (seen : List Flag) (flag : Flag) : List Char → Argument
  | [] => .valued flag ""
  | c :: rest =>
    match Flag.ofLetter? c with
    | none => .valued flag (String.ofList (c :: rest))
    | some next =>
      if rest.isEmpty then .flags (seen ++ [flag, next]) else ofLetters (seen ++ [flag]) next rest

/-- An argument that starts with one dash. -/
def ofShort (text : String) (letter : Char) (rest : List Char) : Argument :=
  match Flag.ofLetter? letter, rest with
  | none, _ => ofUnknown text
  | some flag, [] => .flags [flag]
  | some flag, '=' :: value => ofLetters [] flag value
  | some flag, letters => ofLetters [] flag letters

/-- An argument that starts with two dashes. -/
def ofLong (text : String) : Except UsageError Argument :=
  let name := text.toList.takeWhile (· != '=')
  let value := text.toList.dropWhile (· != '=')
  match Flag.all.filter fun f => name.isPrefixOf f.long.toList with
  | [] => .ok (ofUnknown text)
  | [flag] =>
    .ok (if value.isEmpty then .flags [flag] else .valued flag (String.ofList (value.drop 1)))
  | candidates => .error (.ambiguous text candidates)

/-- What an argument is, before `--`. -/
def ofText (text : String) : Except UsageError Argument :=
  match text.toList with
  | '-' :: '-' :: _ => ofLong text
  | '-' :: letter :: rest => .ok (ofShort text letter rest)
  | _ => .ok (.positional text)

/-- What the arguments are. -/
def ofTexts : List String → Except UsageError (List Argument)
  | [] => .ok []
  | text :: rest =>
    if text = "--" then .ok (.separator :: rest.map .positional)
    else do return (← ofText text) :: (← ofTexts rest)

end Argument

/-- What the command is asked to do with a source. -/
structure Options where
  /-- Write JSON to the output. -/
  json : Bool := false
  /-- Go on after a failure. -/
  accumulate : Bool := false
  /-- List the typed tree. -/
  dumpTyped : Bool := false
  /-- Log what is done. -/
  verbose : Bool := false
  deriving DecidableEq, Repr

/-- What the command is asked to do. -/
inductive Invocation where
  /-- Show how it is used. -/
  | help
  /-- Nothing that it can do. -/
  | misuse (e : UsageError)
  /-- Check the source at a path. -/
  | check (source : String) (options : Options)
  deriving DecidableEq, Repr

/-- The options with a flag set. -/
def Options.set (o : Options) : Flag → Options
  | .help => o
  | .json => { o with json := true }
  | .accumulate => { o with accumulate := true }
  | .dumpTyped => { o with dumpTyped := true }
  | .verbose => { o with verbose := true }

namespace Invocation

/-- What has been read of the arguments. -/
structure Reading where
  /-- The source, if it has been named. -/
  source : Option String := none
  /-- The last argument was the source. -/
  atSource : Bool := false
  /-- The flags. -/
  options : Options := {}
  /-- What is left over, in order. -/
  extras : List String := []

/-- Read on. The mark `--` is left over unless it stands next to the source. -/
def read (r : Reading) : List Argument → Invocation
  | [] =>
    match r.source with
    | none => .misuse .sourceMissing
    | some source =>
      if r.extras.isEmpty then .check source r.options else .misuse (.unrecognized r.extras)
  | .positional text :: rest =>
    match r.source with
    | none => read { r with source := some text, atSource := true } rest
    | some _ => read { r with extras := r.extras ++ [text], atSource := false } rest
  | .flags flags :: rest =>
    if .help ∈ flags then .help
    else read { r with options := flags.foldl Options.set r.options, atSource := false } rest
  | .valued flag value :: _ => .misuse (.ignoredValue flag value)
  | .unknown text :: rest => read { r with extras := r.extras ++ [text], atSource := false } rest
  | .separator :: rest =>
    if r.source.isNone || r.atSource then read { r with atSource := false } rest
    else read { r with extras := r.extras ++ ["--"] } rest

/-- What the arguments ask for. -/
def ofArguments (arguments : List String) : Invocation :=
  match Argument.ofTexts arguments with
  | .ok arguments => read {} arguments
  | .error e => .misuse e

end Invocation

end NumCheck.Command
