import LooseC.Cursor.Session
import LooseC.Lexer.Session
import LooseC.Main
import LooseC.Proofs.Grammar.Basic
import LooseC.Proofs.Grammar.Reads
import LooseC.Proofs.Grammar.Search
import LooseC.Snapshot.Query
import LooseC.Proofs.Grammar.Statement
import LooseC.Proofs.Grammar.Declaration
import LooseC.Proofs.Grammar.Unit
import LooseC.Proofs.Grammar.Alike
import LooseC.Proofs.Grammar.Shift
import LooseC.Proofs.Grammar.Append
import LooseC.Proofs.Lexing.Gap
import LooseC.Proofs.Lexing.Run
import LooseC.Proofs.Lexing.Tiling
import LooseC.Proofs.Lexing.Rescan
import LooseC.Proofs.Lexing.Relex
import LooseC.Proofs.Lexing.Lines
import LooseC.Proofs.Grammar.Layout
import LooseC.Proofs.Lexing.Failure
import LooseC.Proofs.Grammar.Spans
import LooseC.Proofs.Lexing.Session
import LooseC.Proofs.Lexing.Lookahead
import LooseC.Proofs.Trace.Analysis
import LooseC.Proofs.Safety.Productions
import LooseC.Proofs.Grammar.Nesting
import LooseC.Proofs.Lexing.Multiline
import LooseC.Proofs.Dump.Lines
import LooseC.Proofs.Tree.Outline
import LooseC.Proofs.Dump.Reading
import LooseC.Proofs.CommandLine.Modes
import LooseC.Proofs.Grammar.Slice
import LooseC.Proofs.Lexing.Closing
import LooseC.Proofs.Lexing.Number
import LooseC.Proofs.Grammar.Guards
import LooseC.Proofs.Snapshot.Directives
import LooseC.Proofs.Safety.Errors
import LooseC.Proofs.Snapshot.Functions
import LooseC.Proofs.Tree.Address
import LooseC.Proofs.Tree.Preorder
import LooseC.Proofs.Tree.Count
import LooseC.Proofs.Grammar.LocalTree
import LooseC.Proofs.Snapshot.Counts
import LooseC.Proofs.Snapshot.ControlFlow
import LooseC.Proofs.Dump.Colour
import LooseC.Proofs.Cursor.Session
