import Reckoner.CommandLine.Command
import Reckoner.CommandLine.Run
import Reckoner.Double.Arithmetic
import Reckoner.Double.Basic
import Reckoner.Double.Printer
import Reckoner.Double.Reader
import Reckoner.Double.Rounding
import Reckoner.Double.Shortest
import Reckoner.Double.Trigonometry
import Reckoner.Evaluation
import Reckoner.Expression.Basic
import Reckoner.Expression.Draft
import Reckoner.Expression.Foreign
import Reckoner.Expression.Printer
import Reckoner.Files.FileSystem
import Reckoner.Files.Path
import Reckoner.Grammar.Basic
import Reckoner.Grammar.Parse
import Reckoner.Grammar.Rule
import Reckoner.Journal
import Reckoner.Main
import Reckoner.Parsing.Outcome
import Reckoner.Parsing.Parser
import Reckoner.Parsing.Pattern
import Reckoner.Parsing.Value
import Reckoner.Proofs.CommandLine.Console
import Reckoner.Proofs.CommandLine.Run
import Reckoner.Proofs.Double.Nearest
import Reckoner.Proofs.Double.Printer
import Reckoner.Proofs.Double.Range
import Reckoner.Proofs.Double.Rounding
import Reckoner.Proofs.Double.Shortest
import Reckoner.Proofs.Evaluation.Defects
import Reckoner.Proofs.Evaluation.Safety
import Reckoner.Proofs.Grammar.Derivation
import Reckoner.Proofs.Grammar.Failing
import Reckoner.Proofs.Grammar.Language
import Reckoner.Proofs.Grammar.Longest
import Reckoner.Proofs.Grammar.Nesting
import Reckoner.Proofs.Grammar.Number
import Reckoner.Proofs.Grammar.Printed
import Reckoner.Proofs.Grammar.Recursion
import Reckoner.Proofs.Grammar.Returns
import Reckoner.Proofs.Grammar.Within
import Reckoner.Proofs.Parsing.Returns
import Reckoner.Proofs.Parsing.Translation
import Reckoner.Proofs.Parsing.Within
import Reckoner.Proofs.Recipe.Building
import Reckoner.Proofs.Recipe.Within
import Reckoner.Proofs.Text.Numeral
import Reckoner.Recipe.Basic
import Reckoner.Recipe.Session
import Reckoner.Settings
import Reckoner.Terminal.Arguments
import Reckoner.Terminal.CellWidth
import Reckoner.Terminal.Console
import Reckoner.Terminal.Interface
import Reckoner.Terminal.Places
import Reckoner.Text.Basic
import Reckoner.Text.Digit
import Reckoner.Text.Numeral
import Reckoner.Text.Printable
import Reckoner.Text.Quoted
import Reckoner.Text.UpperCase
import Reckoner.Toml.Document
import Reckoner.Toml.Moment
import Reckoner.Toml.Reader
import Reckoner.Toml.Scan
import Reckoner.Toml.Value
import Reckoner.Version
import Reckoner.Proofs.Grammar.Numeral
import Reckoner.Proofs.Double.Reader
import Reckoner.Proofs.Expression.Printer
import Reckoner.Proofs.Evaluation.Printed
import Reckoner.Proofs.Toml.Scan
import Reckoner.Proofs.Toml.Reader
import Reckoner.Proofs.Settings.Loading
import Reckoner.Proofs.Parsing.Merging
import Reckoner.Proofs.Parsing.Choice
import Reckoner.Proofs.Grammar.Keywords
import Reckoner.Proofs.CommandLine.Places
import Reckoner.Proofs.Grammar.Progress
import Reckoner.Proofs.Grammar.Entries
import Reckoner.Proofs.Parsing.Alike
import Reckoner.Proofs.Grammar.Scripts
import Reckoner.Proofs.Evaluation.Arithmetic
import Reckoner.Proofs.Evaluation.Remainder
import Reckoner.Proofs.Double.Fixed
import Reckoner.Proofs.Double.Fewest
import Reckoner.Proofs.Double.Lossless
import Reckoner.Proofs.Parsing.Laws
import Reckoner.Proofs.Text.Quoted
import Reckoner.Proofs.Parsing.Expectations
import Reckoner.Proofs.Settings.Nearest
import Reckoner.Proofs.Settings.Table
