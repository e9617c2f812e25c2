import FormulaSheet.CommandLine.Run
import FormulaSheet.Files.Tree
import FormulaSheet.Main
import FormulaSheet.Proofs.Evaluation.Meaning
import FormulaSheet.Proofs.Evaluation.Soundness
import FormulaSheet.Proofs.Evaluation.Value
import FormulaSheet.Proofs.Evaluation.Recursion
import FormulaSheet.Proofs.Evaluation.Sharing
import FormulaSheet.Proofs.Formula.Lexeme
import FormulaSheet.Proofs.Address.Rectangle
import FormulaSheet.Proofs.Formula.Body
import FormulaSheet.Proofs.Evaluation.Solution
import FormulaSheet.Proofs.Evaluation.Dependence
import FormulaSheet.Proofs.Evaluation.RangeSum
import FormulaSheet.Proofs.Expression.Grammar
import FormulaSheet.Proofs.Expression.Acceptance
import FormulaSheet.Proofs.Json.Pieces
import FormulaSheet.Proofs.Snapshot.RoundTrip
import FormulaSheet.Proofs.Expression.Replacement
import FormulaSheet.Proofs.Expression.Splitting
import FormulaSheet.Proofs.Number.Parts
import FormulaSheet.Proofs.Number.Quantity
import FormulaSheet.Proofs.Number.Layout
import FormulaSheet.Proofs.Number.ReadBack
import FormulaSheet.Proofs.Formula.Symbols
import FormulaSheet.Proofs.Formula.Filling
import FormulaSheet.Proofs.Evaluation.Substitution
import FormulaSheet.Proofs.Evaluation.Edit
import FormulaSheet.Proofs.Evaluation.Nesting
import FormulaSheet.Proofs.Evaluation.Once
import FormulaSheet.Proofs.Evaluation.Growth
import FormulaSheet.Proofs.Document.Failure
import FormulaSheet.Proofs.Document.History
import FormulaSheet.Proofs.Document.Modified
import FormulaSheet.Proofs.Address.Codec
import FormulaSheet.Proofs.Store.Contents
import FormulaSheet.Proofs.Files.Written
import FormulaSheet.Proofs.Document.Saving
import FormulaSheet.Proofs.Export.Box
import FormulaSheet.Proofs.Export.Csv
import FormulaSheet.Proofs.Export.Markdown
import FormulaSheet.Proofs.CommandLine.Session
import FormulaSheet.Proofs.CommandLine.Listing
import FormulaSheet.Proofs.Files.Access
import FormulaSheet.Proofs.CommandLine.Effects
import FormulaSheet.Proofs.Config.Apart
import FormulaSheet.Proofs.CommandLine.WriteBack
import FormulaSheet.Proofs.Expression.Outline
import FormulaSheet.Proofs.Expression.Viability
import FormulaSheet.Proofs.Formula.Alphabet
import FormulaSheet.Proofs.Formula.Merging
import FormulaSheet.Proofs.Evaluation.Marks
import FormulaSheet.Proofs.Evaluation.Operands
import FormulaSheet.Proofs.Guarded.Operation
import FormulaSheet.Proofs.Guarded.Descent
import FormulaSheet.Proofs.Guarded.Evaluation
import FormulaSheet.Proofs.Store.Clearing
import FormulaSheet.Proofs.Evaluation.Demand
import FormulaSheet.Proofs.Number.Nearest
import FormulaSheet.Proofs.Number.Rounded
import FormulaSheet.Proofs.Number.Zeros
import FormulaSheet.Proofs.Number.Shown
import FormulaSheet.Proofs.Evaluation.Retyped
import FormulaSheet.Proofs.Number.Interval
import FormulaSheet.Proofs.Number.Reading
import FormulaSheet.Proofs.Number.Shortest
import FormulaSheet.Proofs.Json.Numerals
import FormulaSheet.Proofs.Json.Magnitude
import FormulaSheet.Proofs.Snapshot.Numbers
import FormulaSheet.Proofs.Address.Spelling
import FormulaSheet.Proofs.Number.Grammar
import FormulaSheet.Proofs.Number.Longest
import FormulaSheet.Proofs.Document.Edits
import FormulaSheet.Proofs.Document.Hidden
import FormulaSheet.Proofs.Expression.Scanning
import FormulaSheet.Proofs.Expression.Spacing
import FormulaSheet.Proofs.Formula.Recognition
import FormulaSheet.Proofs.Evaluation.Forms
import FormulaSheet.Proofs.Formula.Respelling
import FormulaSheet.Proofs.Evaluation.Respelling
import FormulaSheet.Proofs.CommandLine.Exports
import FormulaSheet.Proofs.CommandLine.Groups
