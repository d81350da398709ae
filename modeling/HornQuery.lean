import HornQuery.Main
import HornQuery.Proofs.Number.Bits
import HornQuery.Proofs.Number.Digits
import HornQuery.Proofs.Number.Rounding
import HornQuery.Proofs.Number.Numeral
import HornQuery.Proofs.Text.Characters
import HornQuery.Proofs.Token.Names
import HornQuery.Proofs.Token.Numbers
import HornQuery.Proofs.Term.Readable
import HornQuery.Proofs.Term.Spelling
import HornQuery.Proofs.Term.Reading
import HornQuery.Proofs.Term.RoundTrip
import HornQuery.Proofs.Operator.Table
import HornQuery.Proofs.Operator.Expression
import HornQuery.Proofs.Operator.Reading
import HornQuery.Proofs.Text.Lines
import HornQuery.Proofs.Term.Printable
import HornQuery.Proofs.Answer.Plain
import HornQuery.Proofs.Number.Alphabet
import HornQuery.Proofs.Answer.Weighted
import HornQuery.Proofs.Term.Tally
import HornQuery.Proofs.Term.Occurrences
import HornQuery.Proofs.Conversion.Standard
import HornQuery.Proofs.Conversion.RoundTrip
import HornQuery.Proofs.Goal.Pieces
import HornQuery.Proofs.Conversion.Template
import HornQuery.Proofs.Goal.Operands
import HornQuery.Proofs.Goal.Prebinding
import HornQuery.Proofs.Theory.Log
import HornQuery.Proofs.Theory.Clause
import HornQuery.Proofs.Token.Exchange
import HornQuery.Proofs.Token.NumberExchange
import HornQuery.Proofs.Token.Lookahead
import HornQuery.Proofs.Token.Lexemes
import HornQuery.Proofs.Token.Endings
import HornQuery.Proofs.Goal.Brackets
import HornQuery.Proofs.Term.Nesting
import HornQuery.Proofs.Operator.Combining
import HornQuery.Proofs.Term.Equality
import HornQuery.Proofs.Engine.Enumeration
import HornQuery.Proofs.Theory.Replay
import HornQuery.Proofs.Number.Comparison
import HornQuery.Proofs.Term.Instances
import HornQuery.Proofs.Theory.Execution
import HornQuery.Proofs.Theory.Declaration
import HornQuery.Proofs.Operator.Priority
import HornQuery.Proofs.Goal.Point
import HornQuery.Proofs.Engine.QueryRule
import HornQuery.Proofs.Answer.Acceptance
import HornQuery.Proofs.Answer.Cursor
import HornQuery.Proofs.Answer.Columns
import HornQuery.Proofs.Engine.Escalation
import HornQuery.Proofs.Conversion.Normal
import HornQuery.Proofs.Goal.Accounting
import HornQuery.Proofs.Goal.Written
import HornQuery.Proofs.Term.Applied
import HornQuery.Proofs.Answer.Results
import HornQuery.Proofs.Distinct
import HornQuery.Proofs.Conversion.Precedence
import HornQuery.Proofs.Conversion.Answers
import HornQuery.Proofs.Conversion.Registration
import HornQuery.Proofs.Conversion.Wildcard
import HornQuery.Proofs.Term.Layered
import HornQuery.Proofs.Term.Depth
import HornQuery.Proofs.Engine.Providers
import HornQuery.Proofs.Theory.Directive
import HornQuery.Proofs.Goal.LastToken
import HornQuery.Proofs.Theory.ClauseEnd
import HornQuery.Proofs.Operator.Canonical
import HornQuery.Proofs.Term.CommonInstance
import HornQuery.Proofs.Goal.FreshStem
import HornQuery.Proofs.Engine.Streams
import HornQuery.Proofs.Answer.Collecting
import HornQuery.Proofs.Text.Boundary
import HornQuery.Proofs.Token.Escapes
import HornQuery.Proofs.Token.EscapedTokens
import HornQuery.Proofs.Token.Sliced
import HornQuery.Proofs.Token.Positions
import HornQuery.Proofs.Token.NumberPositions
import HornQuery.Proofs.Token.ScanPositions
import HornQuery.Proofs.Token.Spans
import HornQuery.Proofs.Token.Faults
import HornQuery.Proofs.Term.Faults
