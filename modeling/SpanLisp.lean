import SpanLisp.Json.Reader
import SpanLisp.Main
import SpanLisp.Proofs.ByteLexer
import SpanLisp.Proofs.Interning
import SpanLisp.Proofs.Lexemes
import SpanLisp.Proofs.Trees
import SpanLisp.Proofs.Parsing
import SpanLisp.Proofs.Grammar
import SpanLisp.Proofs.Layout
import SpanLisp.Proofs.Reprint
import SpanLisp.Proofs.Frames
import SpanLisp.Proofs.Reference
import SpanLisp.Proofs.EvalSafety
import SpanLisp.Proofs.Sessions
import SpanLisp.Proofs.SafeAnswers
import SpanLisp.Proofs.Identifiers
import SpanLisp.Proofs.PackCodec
import SpanLisp.Proofs.CborCodec
import SpanLisp.Proofs.ByName
import SpanLisp.Proofs.Restoration
import SpanLisp.Proofs.TwoTables
import SpanLisp.Proofs.SessionState
import SpanLisp.Proofs.TwoReadings
import SpanLisp.Proofs.TwoEvaluations
import SpanLisp.Proofs.TwoSessions
import SpanLisp.Proofs.DepthLimits
import SpanLisp.Proofs.EarliestErrors
import SpanLisp.Proofs.Loading
import SpanLisp.Proofs.LineAndScript
import SpanLisp.Proofs.Places
import SpanLisp.Proofs.Relayout
import SpanLisp.Proofs.JoinedScripts
import SpanLisp.Proofs.PlainInput
import SpanLisp.Proofs.Writes
import SpanLisp.Proofs.SequentialLet
import SpanLisp.Proofs.CanonicalSnapshots
import SpanLisp.Proofs.ReadingInside
import SpanLisp.Proofs.BindingLists
import SpanLisp.Proofs.Addresses
import SpanLisp.Proofs.Arithmetic
import SpanLisp.Proofs.DepthRefusals
import SpanLisp.Proofs.TreeReading
import SpanLisp.Proofs.OwnText
import SpanLisp.Proofs.Marks
import SpanLisp.Proofs.DisplayedData
import SpanLisp.Proofs.SelfDelimiting
import SpanLisp.Proofs.JsonStrings
import SpanLisp.Proofs.JsonReading
import SpanLisp.Proofs.Precedence
import SpanLisp.Proofs.StackOfMaps
import SpanLisp.Proofs.Numbering
