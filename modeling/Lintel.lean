import Lintel.Bundle.Documents
import Lintel.Bundle.Home
import Lintel.Check.Run
import Lintel.Check.Source
import Lintel.Check.Targets
import Lintel.Child.Capture
import Lintel.Child.Run
import Lintel.Cli.Arguments
import Lintel.Cli.Markup
import Lintel.Cli.Run
import Lintel.Cli.Table
import Lintel.Fault
import Lintel.Files.Glob
import Lintel.Files.Path
import Lintel.Files.Tree
import Lintel.Files.Within
import Lintel.Gather
import Lintel.Json.Access
import Lintel.Json.Reader
import Lintel.Json.Text
import Lintel.Json.Value
import Lintel.Json.Writer
import Lintel.Log
import Lintel.Main
import Lintel.Number.Binary64
import Lintel.Number.Digits
import Lintel.Number.Integer
import Lintel.Operation.Builtin
import Lintel.Operation.Params
import Lintel.Operation.Registry
import Lintel.Operation.Service
import Lintel.Pattern.Basic
import Lintel.Pattern.Reader
import Lintel.Policy.Catalog
import Lintel.Policy.DocTags
import Lintel.Policy.Documents
import Lintel.Policy.Loader
import Lintel.Project.Entities
import Lintel.Proofs.Check.Run
import Lintel.Proofs.Check.Visit
import Lintel.Proofs.Gather
import Lintel.Proofs.Review.Bound
import Lintel.Proofs.Review.Course
import Lintel.Proofs.Review.Outcome
import Lintel.Proofs.Review.Step
import Lintel.Proofs.Review.Talk
import Lintel.Proofs.Review.Transcript
import Lintel.Proofs.Review.Walk
import Lintel.Proofs.Text.Blank
import Lintel.Report.Catalog
import Lintel.Report.Check
import Lintel.Report.Lines
import Lintel.Report.Review
import Lintel.Report.Tools
import Lintel.Report.Truncate
import Lintel.Retry
import Lintel.Review.Batch
import Lintel.Review.Conversation
import Lintel.Review.Message
import Lintel.Review.Outcome
import Lintel.Review.Prompt
import Lintel.Review.Schedule
import Lintel.Review.Script
import Lintel.Review.Step
import Lintel.Review.Talk
import Lintel.Review.Toolset
import Lintel.Rule.Basic
import Lintel.Rule.Builtin
import Lintel.Rule.Clause
import Lintel.Rule.Component
import Lintel.Rule.DomainModel
import Lintel.Rule.Handler
import Lintel.Rule.UseCase
import Lintel.Schema.Form
import Lintel.Schema.Problem
import Lintel.Schema.Read
import Lintel.Seconds
import Lintel.Settings.Basic
import Lintel.Settings.Variables
import Lintel.Shell.Arithmetic
import Lintel.Shell.Disk
import Lintel.Shell.Filter
import Lintel.Shell.Flow
import Lintel.Shell.Machine
import Lintel.Shell.Printf
import Lintel.Shell.Reader
import Lintel.Shell.Syntax
import Lintel.Shell.Token
import Lintel.Shell.Utility
import Lintel.Shell.Words
import Lintel.Shell.World
import Lintel.Syntax.Kind
import Lintel.Syntax.Places
import Lintel.Syntax.Source
import Lintel.Syntax.Tree
import Lintel.Text.Blank
import Lintel.Text.Bytes
import Lintel.Text.Lines
import Lintel.Text.Parts
import Lintel.Text.Quoted
import Lintel.Tool.Analysis.Code
import Lintel.Tool.Analysis.Exports
import Lintel.Tool.Analysis.Infra
import Lintel.Tool.Command
import Lintel.Tool.Diagnostic
import Lintel.Tool.Lint
import Lintel.Tool.Report
import Lintel.Tool.Script
import Lintel.Tool.Terraform
import Lintel.Tool.UnusedExport
import Lintel.TypeScript.Binding
import Lintel.TypeScript.Class
import Lintel.TypeScript.Expression
import Lintel.TypeScript.Grammar
import Lintel.TypeScript.Input
import Lintel.TypeScript.Markup
import Lintel.TypeScript.Program
import Lintel.TypeScript.Statement
import Lintel.TypeScript.Token
import Lintel.TypeScript.Type
import Lintel.Unicode.Case
import Lintel.Unicode.Printable
import Lintel.Unicode.Ranges
import Lintel.Unicode.Word
import Lintel.Wildcard
import Lintel.Proofs.Number.Rounding
import Lintel.Proofs.Number.Order
import Lintel.Proofs.Report.Marker
import Lintel.Proofs.Report.Truncate
import Lintel.Proofs.Check.Order
import Lintel.Proofs.Files.Within
import Lintel.Proofs.Number.Integer
import Lintel.Proofs.Tool.Analyses
import Lintel.Proofs.Tool.DiagnosticLine
import Lintel.Proofs.Tool.Judged
import Lintel.Proofs.Tool.CodeExact
import Lintel.Proofs.Tool.InfraExact
import Lintel.Proofs.Tool.Explained
import Lintel.Proofs.Policy.Select
import Lintel.Proofs.Review.Answered
import Lintel.Proofs.Review.Schedule
import Lintel.Proofs.Review.Order
import Lintel.Proofs.Review.Batch
import Lintel.Proofs.Settings.Valid
import Lintel.Proofs.Operation.Execute
import Lintel.Proofs.Files.Sound
import Lintel.Proofs.Policy.History
import Lintel.Proofs.Policy.Catalog
import Lintel.Proofs.Policy.Load
import Lintel.Proofs.Policy.Whole
import Lintel.Proofs.Check.Again
import Lintel.Proofs.Check.Moved
import Lintel.Proofs.Child.Capture
import Lintel.Proofs.Child.Run
import Lintel.Proofs.Files.Collapse
import Lintel.Proofs.Files.Entries
import Lintel.Proofs.Files.Contain
import Lintel.Proofs.Policy.Exact
import Lintel.Proofs.Review.Results
import Lintel.Proofs.Review.Readable
import Lintel.Proofs.Tool.Together
import Lintel.Proofs.Tool.Kept
import Lintel.Proofs.Check.Targets
import Lintel.Proofs.Tool.Printed
import Lintel.Proofs.Tool.ExportsExact
import Lintel.Proofs.Syntax.Character
import Lintel.Proofs.Policy.Description
import Lintel.Proofs.Policy.Documents
import Lintel.Proofs.Retry.Attempts
import Lintel.Proofs.Retry.Delays
import Lintel.Proofs.Policy.Restricted
import Lintel.Proofs.Project.Entities
import Lintel.Proofs.Review.Search
import Lintel.Proofs.Policy.DocComment
import Lintel.Proofs.Rule.Handler
import Lintel.Proofs.Rule.Imports
import Lintel.Proofs.Policy.Lookup
import Lintel.Proofs.Syntax.Preorder
