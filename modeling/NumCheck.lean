import NumCheck.Check.Direct
import NumCheck.Json.Reader
import NumCheck.Main
import NumCheck.Proofs.Closure
import NumCheck.Proofs.Modes
import NumCheck.Proofs.Parsing
import NumCheck.Scopes.Script
import NumCheck.Scopes.Snapshots
import NumCheck.Syntax.Bare
import NumCheck.Syntax.LabelledTree
import NumCheck.Syntax.MapSpans
import NumCheck.Syntax.ReaderError
import NumCheck.Text.Literal
import NumCheck.Typed.Erase
import NumCheck.Typed.Slots
import NumCheck.Proofs.Printing
import NumCheck.Proofs.Slices
import NumCheck.Proofs.SyntaxErrors
import NumCheck.Proofs.Scoping
import NumCheck.Proofs.ConstraintOrder
import NumCheck.Proofs.Effects
import NumCheck.Proofs.Reasons
import NumCheck.Proofs.Independence
import NumCheck.Proofs.Sites
import NumCheck.Proofs.Concatenation
import NumCheck.Proofs.Layout
import NumCheck.Proofs.Notices
import NumCheck.Proofs.ExitStatus
import NumCheck.Proofs.TypedTrees
import NumCheck.Check.Relabel
import NumCheck.Proofs.Relabelling
import NumCheck.Proofs.ChainEnds
import NumCheck.Proofs.Unification
import NumCheck.Proofs.Snapshots
import NumCheck.Proofs.Leaves
import NumCheck.Proofs.Nesting
import NumCheck.Proofs.Positions
import NumCheck.Proofs.Rounding
import NumCheck.Proofs.Binary64
import NumCheck.Proofs.Numerals
import NumCheck.Proofs.SixDigits
import NumCheck.Typed.Outline
import NumCheck.Proofs.Listings
import NumCheck.Proofs.ChainFollowing
import NumCheck.Proofs.ScopeBodies
import NumCheck.Proofs.JsonText
