import ExScript.Buffer
import ExScript.Command.Basic
import ExScript.Command.Keyword
import ExScript.Command.Policy
import ExScript.Error
import ExScript.Expr.Basic
import ExScript.Expr.Eval
import ExScript.Expr.Parser
import ExScript.Expr.Token
import ExScript.Files.Path
import ExScript.Files.Tree
import ExScript.Launch.Arguments
import ExScript.Launch.Program
import ExScript.Launch.Settings
import ExScript.LineRange
import ExScript.Main
import ExScript.Message
import ExScript.Numeral
import ExScript.Outcome
import ExScript.Pattern.Basic
import ExScript.Pattern.CharSet
import ExScript.Pattern.ClassTable
import ExScript.Pattern.Parser
import ExScript.Proofs.Buffer.Reopening
import ExScript.Proofs.Expr.Completeness
import ExScript.Proofs.Expr.Grammar
import ExScript.Proofs.Expr.Listed
import ExScript.Proofs.Expr.Occurrence
import ExScript.Proofs.Expr.Position
import ExScript.Proofs.Expr.ReadBack
import ExScript.Proofs.Expr.Sequence
import ExScript.Proofs.Expr.Soundness
import ExScript.Proofs.Expr.VariableName
import ExScript.Proofs.Launch.CommandLine
import ExScript.Proofs.Launch.OptionLetter
import ExScript.Proofs.Launch.Startup
import ExScript.Proofs.Launch.WrittenLine
import ExScript.Proofs.LineRange.Notation
import ExScript.Proofs.LineRange.Resolution
import ExScript.Proofs.LineRange.Writing
import ExScript.Proofs.Result
import ExScript.Proofs.Run.Adequacy
import ExScript.Proofs.Run.Assignment
import ExScript.Proofs.Run.Atomicity
import ExScript.Proofs.Run.Binding
import ExScript.Proofs.Run.Budget
import ExScript.Proofs.Run.Calls
import ExScript.Proofs.Run.Calm
import ExScript.Proofs.Run.Cause
import ExScript.Proofs.Run.Change
import ExScript.Proofs.Run.Composition
import ExScript.Proofs.Run.Course
import ExScript.Proofs.Run.Deletion
import ExScript.Proofs.Run.Depth
import ExScript.Proofs.Run.Display
import ExScript.Proofs.Run.Effect
import ExScript.Proofs.Run.Elsewhere
import ExScript.Proofs.Run.Inline
import ExScript.Proofs.Run.Peeling
import ExScript.Proofs.Run.Point
import ExScript.Proofs.Run.Progress
import ExScript.Proofs.Run.Refusal
import ExScript.Proofs.Run.Registered
import ExScript.Proofs.Run.Report
import ExScript.Proofs.Run.Restoration
import ExScript.Proofs.Run.Saving
import ExScript.Proofs.Run.Scripted
import ExScript.Proofs.Run.Signals
import ExScript.Proofs.Run.Spelling
import ExScript.Proofs.Run.Step
import ExScript.Proofs.Run.Surroundings
import ExScript.Proofs.Run.Trace
import ExScript.Proofs.Run.Update
import ExScript.Proofs.Run.Written
import ExScript.Proofs.Script.Bars
import ExScript.Proofs.Script.Blocks
import ExScript.Proofs.Script.Callable
import ExScript.Proofs.Script.Continuation
import ExScript.Proofs.Script.DefiningLine
import ExScript.Proofs.Script.Grammar
import ExScript.Proofs.Script.LineEnd
import ExScript.Proofs.Script.LoopLines
import ExScript.Proofs.Script.Plain
import ExScript.Proofs.Script.Reading
import ExScript.Proofs.Script.Seam
import ExScript.Proofs.Script.Separators
import ExScript.Proofs.Script.SingleLine
import ExScript.Proofs.UserCommand.Arguments
import ExScript.Proofs.UserCommand.Declaration
import ExScript.Proofs.UserCommand.Listing
import ExScript.Proofs.UserCommand.Substitution
import ExScript.Proofs.Value.Coercion
import ExScript.Proofs.Value.Ordering
import ExScript.Run.Command
import ExScript.Run.Expansion
import ExScript.Run.Script
import ExScript.Run.Session
import ExScript.Run.Statement
import ExScript.Statement.Basic
import ExScript.Statement.Line
import ExScript.Statement.Parser
import ExScript.Table
import ExScript.Text.Blank
import ExScript.Text.Letter
import ExScript.Text.LetterTable
import ExScript.Text.Quoted
import ExScript.UserCommand.Basic
import ExScript.UserCommand.Definition
import ExScript.UserCommand.Listing
import ExScript.UserCommand.Native
import ExScript.UserCommand.Placeholder
import ExScript.Value
import ExScript.Variables
