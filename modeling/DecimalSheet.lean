import DecimalSheet.Address.Basic
import DecimalSheet.Address.Column
import DecimalSheet.Address.Pair
import DecimalSheet.Address.Range
import DecimalSheet.Decimal.Arithmetic
import DecimalSheet.Decimal.Basic
import DecimalSheet.Decimal.Notation
import DecimalSheet.Decimal.Quotient
import DecimalSheet.Document.SavedGrid
import DecimalSheet.Document.Table
import DecimalSheet.Document.Workbook
import DecimalSheet.ErrorReport
import DecimalSheet.Evaluation.Bound
import DecimalSheet.Evaluation.Dependencies
import DecimalSheet.Evaluation.Evaluator
import DecimalSheet.Evaluation.Outcome
import DecimalSheet.Evaluation.Program
import DecimalSheet.Evaluation.ValueTree
import DecimalSheet.Event
import DecimalSheet.Fault
import DecimalSheet.Formula.Basic
import DecimalSheet.Formula.Diagnosis
import DecimalSheet.Formula.Expr
import DecimalSheet.Formula.Parse
import DecimalSheet.Formula.Print
import DecimalSheet.Formula.Token.Basic
import DecimalSheet.Formula.Token.Scan
import DecimalSheet.Function.Aggregate
import DecimalSheet.Function.Collection
import DecimalSheet.Function.Reducer
import DecimalSheet.Function.Registry
import DecimalSheet.Grid.Basic
import DecimalSheet.Grid.Cell
import DecimalSheet.Grid.Value
import DecimalSheet.Proofs.Address.Canonical
import DecimalSheet.Proofs.Address.Rectangle
import DecimalSheet.Proofs.Address.RowMajor
import DecimalSheet.Proofs.Address.Text
import DecimalSheet.Proofs.Decimal.Division
import DecimalSheet.Proofs.Decimal.Literal
import DecimalSheet.Proofs.Decimal.LiteralText
import DecimalSheet.Proofs.Decimal.PlainNotation
import DecimalSheet.Proofs.Decimal.Rational
import DecimalSheet.Proofs.Document.Rendered
import DecimalSheet.Proofs.Document.SavedGrid
import DecimalSheet.Proofs.Document.Table
import DecimalSheet.Proofs.Evaluation.Answers
import DecimalSheet.Proofs.Evaluation.Calls
import DecimalSheet.Proofs.Evaluation.CircularReferences
import DecimalSheet.Proofs.Evaluation.Cycles
import DecimalSheet.Proofs.Evaluation.Derivation
import DecimalSheet.Proofs.Evaluation.Edges
import DecimalSheet.Proofs.Evaluation.ExactValues
import DecimalSheet.Proofs.Evaluation.Failures
import DecimalSheet.Proofs.Evaluation.Following
import DecimalSheet.Proofs.Evaluation.GivenUp
import DecimalSheet.Proofs.Evaluation.Grounded
import DecimalSheet.Proofs.Evaluation.Isolation
import DecimalSheet.Proofs.Evaluation.Literals
import DecimalSheet.Proofs.Evaluation.Lockstep
import DecimalSheet.Proofs.Evaluation.Mean
import DecimalSheet.Proofs.Evaluation.PlainFaults
import DecimalSheet.Proofs.Evaluation.Precedents
import DecimalSheet.Proofs.Evaluation.Progress
import DecimalSheet.Proofs.Evaluation.Provenance
import DecimalSheet.Proofs.Evaluation.Raising
import DecimalSheet.Proofs.Evaluation.RangeArguments
import DecimalSheet.Proofs.Evaluation.RationalValues
import DecimalSheet.Proofs.Evaluation.Recursion
import DecimalSheet.Proofs.Evaluation.Refinement
import DecimalSheet.Proofs.Evaluation.Requests
import DecimalSheet.Proofs.Evaluation.Room
import DecimalSheet.Proofs.Evaluation.Sessions
import DecimalSheet.Proofs.Evaluation.Soundness
import DecimalSheet.Proofs.Evaluation.Stack
import DecimalSheet.Proofs.Evaluation.Totality
import DecimalSheet.Proofs.Evaluation.Trails
import DecimalSheet.Proofs.Evaluation.TreeEntries
import DecimalSheet.Proofs.Evaluation.Turns
import DecimalSheet.Proofs.Evaluation.Unread
import DecimalSheet.Proofs.Evaluation.ValueTrees
import DecimalSheet.Proofs.Except
import DecimalSheet.Proofs.Formula.Contents
import DecimalSheet.Proofs.Formula.Grammar
import DecimalSheet.Proofs.Formula.Legible
import DecimalSheet.Proofs.Formula.LetterCase
import DecimalSheet.Proofs.Formula.Lexemes
import DecimalSheet.Proofs.Formula.Lookahead
import DecimalSheet.Proofs.Formula.Minimal
import DecimalSheet.Proofs.Formula.Misplaced
import DecimalSheet.Proofs.Formula.Parentheses
import DecimalSheet.Proofs.Formula.Parsing
import DecimalSheet.Proofs.Formula.Proper
import DecimalSheet.Proofs.Formula.Reading
import DecimalSheet.Proofs.Formula.Respelled
import DecimalSheet.Proofs.Formula.RoundTrip
import DecimalSheet.Proofs.Formula.Scanning
import DecimalSheet.Proofs.Formula.Walk
import DecimalSheet.Proofs.Formula.WalkProgress
import DecimalSheet.Proofs.Formula.WalkReading
import DecimalSheet.Proofs.Function.Exact
import DecimalSheet.Proofs.Function.Lookup
import DecimalSheet.Proofs.Function.NeverAborts
import DecimalSheet.Proofs.Function.Precedence
import DecimalSheet.Proofs.Function.Rearranged
import DecimalSheet.Proofs.Grid.Building
import DecimalSheet.Proofs.Grid.TableValue
import DecimalSheet.Proofs.Grid.Tables
import DecimalSheet.Proofs.Grid.Texts
import DecimalSheet.Proofs.Text.Character
import DecimalSheet.Proofs.Text.Joining
import DecimalSheet.Proofs.Text.LowerCase
import DecimalSheet.RawValue
import DecimalSheet.Text.Blank
import DecimalSheet.Text.CaseContext
import DecimalSheet.Text.LetterCase
import DecimalSheet.Text.Quoted
import DecimalSheet.Text.Split
