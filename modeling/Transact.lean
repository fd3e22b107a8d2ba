import Transact.Main
import Transact.Syntax.Same
import Transact.Proofs.Rule.Ensures
import Transact.Proofs.Rule.Restrict
import Transact.Proofs.Grammar.Fixpoint
import Transact.Proofs.Rule.Gives
import Transact.Proofs.Rule.Refines
import Transact.Proofs.Grammar.Refines
import Transact.Proofs.Grammar.Backtracking
import Transact.Proofs.Grammar.Strata
import Transact.Proofs.Token.Reads
import Transact.Proofs.Token.Name
import Transact.Proofs.Token.Literal
import Transact.Proofs.Number.Nearest
import Transact.Proofs.Token.Constant
import Transact.Proofs.Syntax.Formed
import Transact.Proofs.Token.Spells
import Transact.Proofs.Token.Numeral
import Transact.Proofs.Token.Lexer
import Transact.Proofs.Token.Tile
import Transact.Proofs.Token.Word
import Transact.Proofs.Token.Lines
import Transact.Proofs.Token.Lexical
import Transact.Proofs.Syntax.Clean
import Transact.Proofs.Layout.Piece
import Transact.Proofs.Syntax.Begin
import Transact.Proofs.Layout.Name
import Transact.Proofs.Layout.Reads
import Transact.Proofs.Count.Basic
import Transact.Proofs.Count.Stream
import Transact.Proofs.Sound.Name
import Transact.Proofs.Count.Climb
import Transact.Proofs.Sound.Expression
import Transact.Proofs.Sound.Predicate
import Transact.Proofs.Sound.Select
import Transact.Proofs.Grammar.Session
import Transact.Proofs.Sound.Statement
import Transact.Proofs.Sound.Parse
import Transact.Proofs.Sound.Shape
import Transact.Proofs.Replay.Basic
import Transact.Proofs.Replay.Climb
import Transact.Proofs.Replay.Expression
import Transact.Proofs.Replay.Predicate
import Transact.Proofs.Replay.Statement
import Transact.Proofs.Syntax.Alike
import Transact.Proofs.Replay.Parse
import Transact.Proofs.Rule.Lockstep
import Transact.Proofs.Grammar.Likeness
import Transact.Proofs.Grammar.Lockstep
import Transact.Proofs.Grammar.Respelling
import Transact.Proofs.Grammar.Streaming
import Transact.Proofs.Token.Order
import Transact.Proofs.Rule.Collects
import Transact.Proofs.Traversal.Children
import Transact.Proofs.Traversal.Leaf
import Transact.Proofs.Grammar.Leaves
import Transact.Proofs.Traversal.Walk
import Transact.Proofs.Table.Reported
import Transact.Proofs.Table.Search
import Transact.Proofs.Table.Context
import Transact.Proofs.Traversal.Order
import Transact.Proofs.Traversal.Rename
import Transact.Proofs.Traversal.Rewriting
import Transact.Proofs.Traversal.Aligned
import Transact.Proofs.Table.Qualified
import Transact.Proofs.Table.Target
import Transact.Proofs.Table.Default
import Transact.Proofs.Token.Resume
import Transact.Proofs.Syntax.Renamed
import Transact.Proofs.Replay.Qualified
import Transact.Proofs.Traversal.Nested
import Transact.Proofs.LeftJoin.Filtering
import Transact.Proofs.LeftJoin.Findings
import Transact.Proofs.Token.Position
import Transact.Proofs.Token.Follow
import Transact.Proofs.Token.Concatenation
import Transact.Proofs.Token.Separator
import Transact.Proofs.Rule.Turns
import Transact.Proofs.Grammar.Unfolding
import Transact.Proofs.Rule.Built
import Transact.Proofs.Rule.Onward
import Transact.Proofs.Grammar.Built
import Transact.Proofs.Grammar.Termination
import Transact.Proofs.Table.Idempotent
import Transact.Proofs.LeftJoin.Qualified
import Transact.Proofs.Table.Hits
import Transact.Proofs.Table.Pattern
import Transact.Proofs.Token.Numeric
import Transact.Proofs.Table.Itself
import Transact.Proofs.Traversal.References
import Transact.Proofs.Rule.Fork
import Transact.Proofs.Grammar.Finality
import Transact.Proofs.Layout.Balance
import Transact.Proofs.Layout.Composition
import Transact.Proofs.Grammar.Dotted
