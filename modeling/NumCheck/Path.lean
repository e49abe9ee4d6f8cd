/-!
# Paths

A path is a root and the names that lead on from it. Repeated slashes, a slash at the end
and the name `.` mean nothing and are dropped; `..` is kept, since it depends on what is
there. A root of exactly two slashes stays one of two slashes.
-/

namespace NumCheck

/-- A path of a file. -/
structure Path where
  /-- Empty, one slash or two slashes. -/
  root : String
  /-- The names on the way, the last one that of the file itself. -/
  names : List String
  deriving DecidableEq, Repr

namespace Path

/-- The path that a text denotes. -/
def ofString (text : String) : Path where
  root := match (text.toList.takeWhile (· == '/')).length with
    | 0 => ""
    | 2 => "//"
    | _ => "/"
  names := (text.splitOn "/").filter fun name => !(name == "" || name == ".")

/-- How a path is written. The empty one is that of the current directory. -/
def render (p : Path) : String :=
  let text := p.root ++ "/".intercalate p.names
  if text.isEmpty then "." else text

end Path

end NumCheck
