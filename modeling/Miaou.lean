import Miaou.CommandLine.Directory
import Miaou.Main
import Miaou.Proofs.Position
import Miaou.Proofs.Lines
import Miaou.Proofs.Offset
import Miaou.Number.Reading
import Miaou.Proofs.Token.Lexeme
import Miaou.Proofs.Token.Scan
import Miaou.Proofs.Token.Found
import Miaou.Proofs.Token.Layout
import Miaou.Proofs.Token.Span
import Miaou.Proofs.Token.Nesting
import Miaou.Proofs.Grammar.Outcome
import Miaou.Proofs.Grammar.StmtOutcome
import Miaou.Proofs.Grammar.Relocation
import Miaou.Proofs.Grammar.Derivation
import Miaou.Proofs.Number.Digits
import Miaou.Proofs.Number.Word
import Miaou.Proofs.Token.Yield
import Miaou.Proofs.Grammar.Spelling
import Miaou.Proofs.Grammar.Completion
import Miaou.Proofs.Grammar.Precedence
import Miaou.Proofs.Number.Readback
import Miaou.Proofs.Token.Origin
import Miaou.Proofs.Grammar.Printing
import Miaou.Proofs.Grammar.Law
import Miaou.Proofs.Grammar.StmtLaw
import Miaou.Proofs.Grammar.Extent
import Miaou.Proofs.Grammar.Skeleton
import Miaou.Proofs.Grammar.Balance
import Miaou.Proofs.Grammar.Locality
import Miaou.Proofs.Grammar.Cursor
import Miaou.Proofs.Grammar.Progress
import Miaou.Proofs.Grammar.Outline
import Miaou.Proofs.Grammar.Nesting
import Miaou.Proofs.Token.Indented
import Miaou.Proofs.Grammar.Blocks
import Miaou.Proofs.Grammar.Rereading
import Miaou.Proofs.Grammar.RoundTrip
import Miaou.Proofs.Token.Misreading
import Miaou.Proofs.Diagnostic.Context
import Miaou.Proofs.Diagnostic.Window
import Miaou.Proofs.Diagnostic.Carets
import Miaou.Proofs.Diagnostic.Raising
import Miaou.Proofs.Token.Raising
import Miaou.Proofs.Diagnostic.Wording
import Miaou.Proofs.Diagnostic.Catalogs
import Miaou.Proofs.Diagnostic.Place
import Miaou.Proofs.Diagnostic.Pointing
import Miaou.Proofs.Diagnostic.Quotation
import Miaou.Proofs.Diagnostic.Filling
import Miaou.Proofs.Token.Ending
import Miaou.Proofs.Token.Scanner
import Miaou.Proofs.Token.IdleLine
import Miaou.Proofs.Token.Returns
import Miaou.Proofs.Grammar.Returns
import Miaou.Proofs.Diagnostic.Returns
import Miaou.Proofs.Token.Reindented
import Miaou.Proofs.Grammar.Reindented
import Miaou.Proofs.CommandLine.Verdict
import Miaou.Proofs.Grammar.Plain
import Miaou.Proofs.Grammar.Values
import Miaou.Proofs.Text.Letters
import Miaou.Proofs.Token.Respelled
import Miaou.Proofs.Grammar.Respelled
import Miaou.Proofs.Grammar.Targets
import Miaou.Proofs.Grammar.Forms
import Miaou.Proofs.Diagnostic.Substitution
import Miaou.Proofs.Number.Magnitude
import Miaou.Proofs.Token.Literals
import Miaou.Proofs.Token.Integers
import Miaou.Proofs.Grammar.Scannable
import Miaou.Proofs.Grammar.Draws
import Miaou.Proofs.Diagnostic.Registry
import Miaou.Proofs.Diagnostic.Variables
import Miaou.Proofs.Token.Advance
