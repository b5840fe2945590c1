import DocSelect.Command.Arguments
import DocSelect.Command.Query
import DocSelect.Dict
import DocSelect.Eval.Access
import DocSelect.Eval.Builtin
import DocSelect.Eval.Builtin.Collection
import DocSelect.Eval.Builtin.Conversion
import DocSelect.Eval.Builtin.Encoding
import DocSelect.Eval.Builtin.Numeric
import DocSelect.Eval.Calls
import DocSelect.Eval.Construction
import DocSelect.Eval.Error
import DocSelect.Eval.Evaluate
import DocSelect.Eval.Function
import DocSelect.Eval.Operation
import DocSelect.Eval.Passage
import DocSelect.Eval.Select
import DocSelect.Eval.Step
import DocSelect.Eval.Traversal
import DocSelect.Expr.Basic
import DocSelect.Expr.Cursor
import DocSelect.Expr.Operator
import DocSelect.Expr.Parser
import DocSelect.Expr.Parts
import DocSelect.FileSystem
import DocSelect.Format
import DocSelect.Json.Reader
import DocSelect.Json.Writer
import DocSelect.Main
import DocSelect.Number.Binary64
import DocSelect.Number.Decimal96
import DocSelect.Number.Layout
import DocSelect.Number.Reading
import DocSelect.Number.Shortest
import DocSelect.Proofs.Alike.Builtin
import DocSelect.Proofs.Alike.Change
import DocSelect.Proofs.Alike.Evaluation
import DocSelect.Proofs.Alike.Run
import DocSelect.Proofs.Alike.Step
import DocSelect.Proofs.Alike.Store
import DocSelect.Proofs.Alike.Tree
import DocSelect.Proofs.Assignment
import DocSelect.Proofs.Assignment.Constant
import DocSelect.Proofs.Assignment.Lookup
import DocSelect.Proofs.Assignment.Writing
import DocSelect.Proofs.Copying
import DocSelect.Proofs.Effects.Basic
import DocSelect.Proofs.Effects.Builtin
import DocSelect.Proofs.Effects.Evaluation
import DocSelect.Proofs.Effects.Step
import DocSelect.Proofs.Execution
import DocSelect.Proofs.Forest
import DocSelect.Proofs.Frame
import DocSelect.Proofs.Grounded
import DocSelect.Proofs.Ownership
import DocSelect.Proofs.Planting
import DocSelect.Proofs.Precedence.Climbing
import DocSelect.Proofs.Precedence.Leaf
import DocSelect.Proofs.Precedence.Parsing
import DocSelect.Proofs.Precedence.Reading
import DocSelect.Proofs.Soundness.Copy
import DocSelect.Proofs.Soundness.Store
import DocSelect.Regex
import DocSelect.Regex.CharSet
import DocSelect.Regex.Meaning
import DocSelect.Regex.Parser
import DocSelect.Regex.Pattern
import DocSelect.Regex.Place
import DocSelect.Regex.Property
import DocSelect.Regex.Property.Age
import DocSelect.Regex.Property.Binary
import DocSelect.Regex.Property.Category
import DocSelect.Regex.Property.Script
import DocSelect.Regex.Property.Segmentation
import DocSelect.Regex.Property.Table
import DocSelect.Regex.Syntax
import DocSelect.Regex.Weight
import DocSelect.Text.Base64
import DocSelect.Text.Blank
import DocSelect.Text.CaseFolding
import DocSelect.Text.Letters
import DocSelect.Text.Numerals
import DocSelect.Text.Printable
import DocSelect.Text.Quoted
import DocSelect.Text.Ranges
import DocSelect.Token.Basic
import DocSelect.Token.Lexer
import DocSelect.Value.Arithmetic
import DocSelect.Value.Content
import DocSelect.Value.Descent
import DocSelect.Value.Hop
import DocSelect.Value.Kind
import DocSelect.Value.Order
import DocSelect.Value.Path
import DocSelect.Value.Range
import DocSelect.Value.Shown
import DocSelect.Value.Sorting
import DocSelect.Value.Store
import DocSelect.Value.Tree
import DocSelect.Proofs.Soundness.Rules
import DocSelect.Proofs.Soundness.Builtin
import DocSelect.Proofs.Soundness.Step
import DocSelect.Proofs.Soundness.Search
import DocSelect.Proofs.Soundness.Evaluation
import DocSelect.Proofs.Reachable
import DocSelect.Proofs.Spreads
import DocSelect.Proofs.Ending
import DocSelect.Proofs.Nesting.Height
import DocSelect.Proofs.Nesting.Tally
import DocSelect.Proofs.Nesting
import DocSelect.Proofs.Tokens.Lexeme
import DocSelect.Proofs.Tokens
import DocSelect.Proofs.Json.Scalars
import DocSelect.Proofs.Json.Reading
import DocSelect.Proofs.Json
import DocSelect.Proofs.Marks
import DocSelect.Proofs.Alike.Trim
import DocSelect.Proofs.Broadcast.Agreement
import DocSelect.Proofs.Broadcast
import DocSelect.Proofs.Merging.Shape
import DocSelect.Proofs.Merging.Value
import DocSelect.Proofs.Merging
import DocSelect.Proofs.Json.Lines
import DocSelect.Proofs.Listing
import DocSelect.Proofs.Order.Lexicographic
import DocSelect.Proofs.Order.Rounding
import DocSelect.Proofs.Repetition
import DocSelect.Proofs.Order.Scalars
import DocSelect.Proofs.Order.Level
import DocSelect.Proofs.Order
import DocSelect.Proofs.Turns
import DocSelect.Proofs.Broadcast.Operand
import DocSelect.Proofs.Quiet
import DocSelect.Proofs.Dropping
import DocSelect.Proofs.Compound.Matching
import DocSelect.Proofs.Compound
import DocSelect.Proofs.Failing
import DocSelect.Proofs.Updating.Overwriting
import DocSelect.Proofs.Updating.Selecting
import DocSelect.Proofs.Updating
import DocSelect.Proofs.Brackets
import DocSelect.Proofs.Modifying
import DocSelect.Proofs.Joining
import DocSelect.Proofs.Stack
import DocSelect.Proofs.Equality.Arrangement
import DocSelect.Proofs.Equality
import DocSelect.Proofs.Sorting.Stable
import DocSelect.Proofs.Sorting
import DocSelect.Proofs.Searching.Preorder
import DocSelect.Proofs.Searching
import DocSelect.Proofs.Wrapping.Basic
import DocSelect.Proofs.Wrapping.Builtin
import DocSelect.Proofs.Wrapping.Step
import DocSelect.Proofs.Wrapping
import DocSelect.Proofs.Comparing
import DocSelect.Proofs.Equality.Copies
import DocSelect.Proofs.Ranges
import DocSelect.Proofs.Fallback
import DocSelect.Proofs.Escaping
import DocSelect.Proofs.Literals
import DocSelect.Proofs.NormalForm
import DocSelect.Proofs.Objects
import DocSelect.Proofs.Integers
import DocSelect.Proofs.Totals
import DocSelect.Proofs.Copying.Notes
import DocSelect.Proofs.Operands
import DocSelect.Proofs.Appending
import DocSelect.Proofs.Shorthand.Word
import DocSelect.Proofs.Shorthand.Entry
import DocSelect.Proofs.Shorthand
import DocSelect.Proofs.Concatenation
import DocSelect.Expr.UnboundedParser
import DocSelect.Proofs.Progress.Following
import DocSelect.Proofs.Progress.Production
import DocSelect.Proofs.Progress
import DocSelect.Token.Scanner
import DocSelect.Proofs.Scanning.Runs
import DocSelect.Proofs.Scanning.Agreement
import DocSelect.Proofs.Scanning
