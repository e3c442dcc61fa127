import StackLang.Text.Blank
import StackLang.Text.Offset
import StackLang.Text.Decimal
import StackLang.Text.Style
import StackLang.Text.Ending
import StackLang.Fault
import StackLang.Value
import StackLang.Arithmetic
import StackLang.Column
import StackLang.Diagnostic
import StackLang.Routine
import StackLang.Stack.Basic
import StackLang.Stack.Request
import StackLang.Opcode
import StackLang.Spelling
import StackLang.Token.Basic
import StackLang.Token.Classifier
import StackLang.Lexeme
import StackLang.Vocabulary
import StackLang.Session.State
import StackLang.Behavior
import StackLang.Session.Basic
import StackLang.Effect
import StackLang.Run
import StackLang.Session.Display
import StackLang.Source.Basic
import StackLang.Source.Input
import StackLang.Batch
import StackLang.Folder
import StackLang.CommandLine
import StackLang.Program
import StackLang.Main
import StackLang.Proofs.Layout
import StackLang.Proofs.MaximalRuns
import StackLang.Proofs.WordEffects
import StackLang.Proofs.SessionRuns
import StackLang.Proofs.FailFast
import StackLang.Proofs.LineSplitting
import StackLang.Proofs.Expression
import StackLang.Proofs.PostfixArithmetic
import StackLang.Proofs.SpacedWords
import StackLang.Proofs.StackEffects
import StackLang.Proofs.StyledDisplay
import StackLang.Proofs.Classification
import StackLang.Proofs.KnownWords
import StackLang.Proofs.NormalForm
import StackLang.Proofs.TextLines
import StackLang.Proofs.BatchRuns
import StackLang.Proofs.TokenRuns
import StackLang.Proofs.Renaming
import StackLang.Proofs.CarryOver
import StackLang.Proofs.Depth
import StackLang.Proofs.LowerValues
import StackLang.Proofs.LoweredLines
import StackLang.Proofs.Printout
import StackLang.Proofs.StatusLines
import StackLang.Proofs.Shuffling
import StackLang.Proofs.ClassifierOrder
import StackLang.Proofs.PrintedValues
import StackLang.Proofs.PlainRuns
import StackLang.Proofs.JoinedLines
import StackLang.Proofs.Undoing
import StackLang.Proofs.Integrality
import StackLang.Proofs.Underlining
import StackLang.Proofs.WordIdentities
import StackLang.Proofs.InsertionHistory
import StackLang.Proofs.BulkOperations
import StackLang.Proofs.LineEndings
import StackLang.Proofs.Descriptions
import StackLang.Proofs.OptionPlacement
