import Descent.Arithmetic.Evaluation
import Descent.Arithmetic.Expression
import Descent.Arithmetic.Operator
import Descent.Arithmetic.RightNested
import Descent.Arithmetic.Tree
import Descent.Binary64
import Descent.Binary64.Printer
import Descent.Blueprint
import Descent.Fault
import Descent.Grammar
import Descent.Grammar.Definitions
import Descent.Grammar.Part
import Descent.Lexeme.Alphabet
import Descent.Lexeme.Blank
import Descent.Lexeme.Fraction
import Descent.Lexeme.Identifier
import Descent.Lexeme.Integer
import Descent.Lexeme.Quoted
import Descent.Number
import Descent.Number.Operations
import Descent.Numeral
import Descent.Outcome
import Descent.Parser
import Descent.Pattern
import Descent.Pattern.Escape
import Descent.Pattern.Matcher
import Descent.Pattern.Reader
import Descent.Proofs.Arithmetic.Conversion
import Descent.Proofs.Arithmetic.DecimalReaders
import Descent.Proofs.Arithmetic.Ending
import Descent.Proofs.Arithmetic.Evaluation
import Descent.Proofs.Arithmetic.Factor
import Descent.Proofs.Arithmetic.FirstFault
import Descent.Proofs.Arithmetic.Formula
import Descent.Proofs.Arithmetic.Harmless
import Descent.Proofs.Arithmetic.Language
import Descent.Proofs.Arithmetic.LeftNesting
import Descent.Proofs.Arithmetic.Level
import Descent.Proofs.Arithmetic.LongestPrefix
import Descent.Proofs.Arithmetic.Number
import Descent.Proofs.Arithmetic.Parentheses
import Descent.Proofs.Arithmetic.Reading
import Descent.Proofs.Arithmetic.RightNesting
import Descent.Proofs.Arithmetic.Safety
import Descent.Proofs.Arithmetic.SignedChain
import Descent.Proofs.Arithmetic.Soundness
import Descent.Proofs.Binary64.Quotient
import Descent.Proofs.Grammar.Agreement
import Descent.Proofs.Grammar.AtLeastOnce
import Descent.Proofs.Grammar.Binding
import Descent.Proofs.Grammar.Built
import Descent.Proofs.Grammar.Everywhere
import Descent.Proofs.Grammar.Exclusion
import Descent.Proofs.Grammar.Factoring
import Descent.Proofs.Grammar.Guarded
import Descent.Proofs.Grammar.Limit
import Descent.Proofs.Grammar.Nullable
import Descent.Proofs.Grammar.ReadyMade
import Descent.Proofs.Grammar.Regrouping
import Descent.Proofs.Grammar.Repetition
import Descent.Proofs.Grammar.Result
import Descent.Proofs.Grammar.SameGrammar
import Descent.Proofs.Grammar.Shorthand
import Descent.Proofs.Grammar.Suffix
import Descent.Proofs.Grammar.Threading
import Descent.Proofs.Lexeme.Blank
import Descent.Proofs.Lexeme.CharacterClass
import Descent.Proofs.Lexeme.Characters
import Descent.Proofs.Lexeme.Escape
import Descent.Proofs.Lexeme.Fraction
import Descent.Proofs.Lexeme.Harmless
import Descent.Proofs.Lexeme.Identifier
import Descent.Proofs.Lexeme.Integer
import Descent.Proofs.Lexeme.LongestFraction
import Descent.Proofs.Lexeme.Piece
import Descent.Proofs.Lexeme.Positional
import Descent.Proofs.Lexeme.Quoted
import Descent.Proofs.Lexeme.Token
import Descent.Proofs.Lexeme.WrittenFloat
import Descent.Proofs.Numeral.Value
import Descent.Proofs.Numeral.Written
import Descent.Proofs.Parser.Choice
import Descent.Proofs.Parser.Confined
import Descent.Proofs.Parser.Ending
import Descent.Proofs.Parser.Fault
import Descent.Proofs.Parser.Limit
import Descent.Proofs.Parser.Output
import Descent.Proofs.Parser.Repetition
import Descent.Proofs.Pattern.CharacterClass
import Descent.Proofs.Pattern.Longest
import Descent.Proofs.Pattern.Place
import Descent.Proofs.Pattern.Run
import Descent.Proofs.Text.LongestPrefix
import Descent.Proofs.Text.Position
import Descent.Proofs.Verdict.Location
import Descent.Text
import Descent.Text.Position
import Descent.Text.Printable
import Descent.Text.Quoted
import Descent.Value
import Descent.Value.Equality
import Descent.Value.Operations
import Descent.Value.Printer
import Descent.Verdict
