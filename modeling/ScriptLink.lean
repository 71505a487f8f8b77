import ScriptLink.Unicode.Identifier
import ScriptLink.Unicode.Blank
import ScriptLink.Unicode.Word
import ScriptLink.Unicode.Alphanumeric
import ScriptLink.Unicode.Printable
import ScriptLink.Unicode.ExtendingMark
import ScriptLink.Token
import ScriptLink.Literal.Number
import ScriptLink.Literal.Quoted
import ScriptLink.Literal.RegExp
import ScriptLink.Literal.Template
import ScriptLink.Literal.Comment
import ScriptLink.Operator
import ScriptLink.Identifier
import ScriptLink.SourceError
import ScriptLink.Tokenization
import ScriptLink.TokenStream
import ScriptLink.ReservedWord
import ScriptLink.Binding
import ScriptLink.Statement
import ScriptLink.Rewrite
import ScriptLink.Text.Escaped
import ScriptLink.Content
import ScriptLink.Content.Printer
import ScriptLink.Path
import ScriptLink.Config
import ScriptLink.Slot
import ScriptLink.Wrapper
import ScriptLink.Markup.Occurrence
import ScriptLink.Markup.Tag
import ScriptLink.Marker
import ScriptLink.Component
import ScriptLink.LoadError
import ScriptLink.WaitGraph
import ScriptLink.Host
import ScriptLink.Loader
import ScriptLink.Session.Run
import ScriptLink.Content.Script
import ScriptLink.Console.Completeness
import ScriptLink.Console.Completion
import ScriptLink.Console.Dialogue
import ScriptLink.Console.Highlight
import ScriptLink.Trace
import ScriptLink.CommandLine.Run
import ScriptLink.Main
import ScriptLink.Proofs.Session.Records
import ScriptLink.Proofs.Session.Turn
import ScriptLink.Proofs.WaitGraph
import ScriptLink.Proofs.Session.Polling
import ScriptLink.Proofs.Session.Steps
import ScriptLink.Proofs.Session.Once
import ScriptLink.Proofs.Session.Waiting
import ScriptLink.Proofs.Session.CycleCheck
import ScriptLink.Proofs.Demand
import ScriptLink.Proofs.Session.Work
import ScriptLink.Proofs.Session.Stuck
import ScriptLink.Proofs.Session.Deadlock
import ScriptLink.Proofs.Session.Deferral
import ScriptLink.Proofs.Session.History
import ScriptLink.Proofs.Session.Order
import ScriptLink.Proofs.Session.Containment
import ScriptLink.Proofs.Path
import ScriptLink.Proofs.CanonicalPath
import ScriptLink.Proofs.Session.Ending
import ScriptLink.Proofs.Session.Agreement
import ScriptLink.Proofs.Session.Confluence
import ScriptLink.Proofs.Session.Sealing
import ScriptLink.Proofs.Session.Suspended
import ScriptLink.Proofs.Session.Errors
import ScriptLink.Proofs.Session.Failing
import ScriptLink.Proofs.Literal
import ScriptLink.Proofs.Tokenization
import ScriptLink.Proofs.Step
import ScriptLink.Proofs.TemplateNesting
import ScriptLink.Proofs.Neighbour
import ScriptLink.Proofs.ReservedWord
import ScriptLink.Proofs.Walk
import ScriptLink.Proofs.Shape
import ScriptLink.Proofs.Act
import ScriptLink.Proofs.Classification
import ScriptLink.Proofs.Rewrite
import ScriptLink.Proofs.Frame
import ScriptLink.Proofs.SourceOrder
import ScriptLink.Proofs.Collecting
import ScriptLink.Proofs.ImportOrder
import ScriptLink.Proofs.ExportOrder
import ScriptLink.Proofs.Session.Bindings
import ScriptLink.Proofs.Session.Spelling
import ScriptLink.Proofs.Lookahead.Agreement
import ScriptLink.Proofs.Lookahead.Literal
import ScriptLink.Proofs.Lookahead.Number
import ScriptLink.Proofs.Lookahead.Step
import ScriptLink.Proofs.Lookahead.Ending
import ScriptLink.Proofs.Numeral
import ScriptLink.Proofs.LineBreak
import ScriptLink.Proofs.Joining
import ScriptLink.Proofs.Rescan
import ScriptLink.Proofs.Quoting
import ScriptLink.Proofs.WrapperText
import ScriptLink.Proofs.Pieces
import ScriptLink.Proofs.Revision
import ScriptLink.Proofs.Written
import ScriptLink.Proofs.Gap
import ScriptLink.Proofs.Assignment
import ScriptLink.Proofs.Reading
import ScriptLink.Proofs.Header
import ScriptLink.Proofs.Idempotence
import ScriptLink.Proofs.Console.Counting
import ScriptLink.Proofs.Console.Completeness
import ScriptLink.Proofs.Console.Completion
import ScriptLink.Proofs.MarkerPlace
import ScriptLink.Proofs.StringLiteral
import ScriptLink.Proofs.LineEnding
import ScriptLink.Proofs.WrapperHeader
import ScriptLink.Proofs.Session.Naming
import ScriptLink.Proofs.Grammar
import ScriptLink.Proofs.ImportReading
import ScriptLink.Proofs.Looking
import ScriptLink.Proofs.ImportLanguage
import ScriptLink.Proofs.ExportReading
import ScriptLink.Proofs.ExportLanguage
import ScriptLink.Proofs.DeclaratorList
import ScriptLink.Proofs.RecordedName
import ScriptLink.Proofs.PathComposition
import ScriptLink.Proofs.DigitRun
import ScriptLink.Proofs.NumberForm
import ScriptLink.Proofs.RegExpForm
import ScriptLink.Proofs.OpenLiteral
import ScriptLink.Proofs.Closing
import ScriptLink.Proofs.ErrorPlace
import ScriptLink.Proofs.Session.Refusal
import ScriptLink.Proofs.Markup.Occurrence
import ScriptLink.Proofs.Markup.Tag
import ScriptLink.Proofs.Markup.FirstTemplate
import ScriptLink.Proofs.Markup.Document
import ScriptLink.Proofs.Attachment
import ScriptLink.Proofs.Session.OwnCalls
import ScriptLink.Proofs.Session.ComponentCourse
import ScriptLink.Proofs.Session.ComponentLoad
