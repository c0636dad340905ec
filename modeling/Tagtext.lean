import Tagtext.Argument
import Tagtext.Binary64
import Tagtext.Binary64.Spelling
import Tagtext.Builtins
import Tagtext.Cancellation
import Tagtext.CommandLine.Command
import Tagtext.CommandLine.Grammar
import Tagtext.CommandLine.Listing
import Tagtext.CommandLine.Run
import Tagtext.Config
import Tagtext.ConfigFile
import Tagtext.Context
import Tagtext.Descriptor
import Tagtext.Dictionary
import Tagtext.Document
import Tagtext.Engine
import Tagtext.Engine.Summary
import Tagtext.Evaluation
import Tagtext.Handler
import Tagtext.Interruption
import Tagtext.Json
import Tagtext.Json.Reader
import Tagtext.Json.Writer
import Tagtext.Main
import Tagtext.Name
import Tagtext.Pacing
import Tagtext.ParseError
import Tagtext.Provider
import Tagtext.Quoted
import Tagtext.Registrations
import Tagtext.Segment
import Tagtext.Table
import Tagtext.Tag
import Tagtext.Template.Expression
import Tagtext.Template.Filter
import Tagtext.Template.Piece
import Tagtext.Template.Reader
import Tagtext.Template.Rendering
import Tagtext.Template.Token
import Tagtext.Template.Value
import Tagtext.TemplateFile
import Tagtext.TemplateStore
import Tagtext.Text
import Tagtext.Text.Blank
import Tagtext.Text.Case
import Tagtext.Text.CaseTable
import Tagtext.Text.Digits
import Tagtext.Text.FormlessTable
import Tagtext.Text.Literal
import Tagtext.Yaml
import Tagtext.Yaml.Reader
import Tagtext.Yaml.Scalar
import Tagtext.Yaml.Token
import Tagtext.Proofs.Matching
import Tagtext.Proofs.Step
import Tagtext.Proofs.Echo
import Tagtext.Proofs.Forest
import Tagtext.Proofs.Meaning
import Tagtext.Proofs.Cut
import Tagtext.Proofs.Nesting
import Tagtext.Proofs.Partial
import Tagtext.Proofs.Quoting
import Tagtext.Proofs.Skim
import Tagtext.Proofs.Lexeme
import Tagtext.Proofs.Written
import Tagtext.Proofs.Agreement
import Tagtext.Proofs.Balance
import Tagtext.Proofs.Halted
import Tagtext.Proofs.Concat
import Tagtext.Proofs.Compose
import Tagtext.Proofs.Cancelling
import Tagtext.Proofs.Override
import Tagtext.Proofs.Depth
import Tagtext.Proofs.Budget
import Tagtext.Proofs.Editing
import Tagtext.Proofs.Isolation
import Tagtext.Proofs.Account
import Tagtext.Proofs.Unread
import Tagtext.Proofs.Recognition
import Tagtext.Proofs.Grammar
import Tagtext.Proofs.Bytes
import Tagtext.Proofs.ByteScan
import Tagtext.Proofs.Slicing
import Tagtext.Proofs.Pacing
import Tagtext.Proofs.Relay
import Tagtext.Proofs.Headings
import Tagtext.Proofs.Registering
import Tagtext.Proofs.Spacing
import Tagtext.Proofs.FaultOffsets
import Tagtext.Proofs.Slashing
import Tagtext.Proofs.Relocation
import Tagtext.Proofs.Unclosed
import Tagtext.Proofs.Authoring
import Tagtext.Proofs.Seams
import Tagtext.Proofs.Naming
import Tagtext.Proofs.Lookups
import Tagtext.Proofs.IndexedPass
import Tagtext.Proofs.ClosingQuote
import Tagtext.Proofs.Coverage
