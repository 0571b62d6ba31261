import ScriptBuild.Build.Backend
import ScriptBuild.Build.Compiler
import ScriptBuild.Build.Invocation
import ScriptBuild.Build.Log
import ScriptBuild.Build.Options
import ScriptBuild.Build.Process
import ScriptBuild.CommandLine.Argument
import ScriptBuild.CommandLine.Request
import ScriptBuild.CommandLine.Run
import ScriptBuild.Diagnostic.Basic
import ScriptBuild.Diagnostic.Line
import ScriptBuild.Diagnostic.Listing
import ScriptBuild.File.Access
import ScriptBuild.File.Error
import ScriptBuild.File.Lookup
import ScriptBuild.File.System
import ScriptBuild.Index.Basic
import ScriptBuild.Index.Walk
import ScriptBuild.Main
import ScriptBuild.Metadata.Basic
import ScriptBuild.Metadata.Numeral
import ScriptBuild.Metadata.Quoted
import ScriptBuild.Metadata.Reader
import ScriptBuild.Namespace.Declaration
import ScriptBuild.Namespace.Scan
import ScriptBuild.Namespace.Set
import ScriptBuild.Path.Basic
import ScriptBuild.Path.Parts
import ScriptBuild.Proofs.Build.Arguments
import ScriptBuild.Proofs.Build.Compiler
import ScriptBuild.Proofs.Build.Course
import ScriptBuild.Proofs.Build.Frame
import ScriptBuild.Proofs.Build.Launch
import ScriptBuild.Proofs.Build.Log
import ScriptBuild.Proofs.Build.Options
import ScriptBuild.Proofs.Build.OutputDirectory
import ScriptBuild.Proofs.Build.Product
import ScriptBuild.Proofs.Build.Reference
import ScriptBuild.Proofs.Build.Sources
import ScriptBuild.Proofs.Build.Verdict
import ScriptBuild.Proofs.CommandLine.Agreement
import ScriptBuild.Proofs.CommandLine.Files
import ScriptBuild.Proofs.Diagnostic.Boundary
import ScriptBuild.Proofs.Diagnostic.Convention
import ScriptBuild.Proofs.Diagnostic.Grammar
import ScriptBuild.Proofs.Diagnostic.Header
import ScriptBuild.Proofs.Diagnostic.Indent
import ScriptBuild.Proofs.Diagnostic.Related
import ScriptBuild.Proofs.Diagnostic.Report
import ScriptBuild.Proofs.Diagnostic.Reprint
import ScriptBuild.Proofs.Diagnostic.Split
import ScriptBuild.Proofs.Diagnostic.Written
import ScriptBuild.Proofs.File.Chain
import ScriptBuild.Proofs.File.Growth
import ScriptBuild.Proofs.File.Making
import ScriptBuild.Proofs.File.Named
import ScriptBuild.Proofs.File.Operation
import ScriptBuild.Proofs.File.Scratch
import ScriptBuild.Proofs.File.Success
import ScriptBuild.Proofs.File.Tree
import ScriptBuild.Proofs.File.Vacant
import ScriptBuild.Proofs.File.Walk
import ScriptBuild.Proofs.Index.Build
import ScriptBuild.Proofs.Index.Descent
import ScriptBuild.Proofs.Index.Exporter
import ScriptBuild.Proofs.Index.Search
import ScriptBuild.Proofs.Index.Table
import ScriptBuild.Proofs.Metadata.Cut
import ScriptBuild.Proofs.Metadata.Exchange
import ScriptBuild.Proofs.Metadata.Image
import ScriptBuild.Proofs.Metadata.Json
import ScriptBuild.Proofs.Metadata.Load
import ScriptBuild.Proofs.Metadata.Numeral
import ScriptBuild.Proofs.Metadata.Payload
import ScriptBuild.Proofs.Metadata.Quoted
import ScriptBuild.Proofs.Metadata.Record
import ScriptBuild.Proofs.Metadata.Sequence
import ScriptBuild.Proofs.Metadata.Slot
import ScriptBuild.Proofs.Metadata.Token
import ScriptBuild.Proofs.Namespace.Comment
import ScriptBuild.Proofs.Namespace.Declaration
import ScriptBuild.Proofs.Namespace.Joined
import ScriptBuild.Proofs.Namespace.Run
import ScriptBuild.Proofs.Namespace.Scan
import ScriptBuild.Proofs.Namespace.Set
import ScriptBuild.Proofs.Path.Order
import ScriptBuild.Proofs.Path.Parent
import ScriptBuild.Proofs.Path.Parts
import ScriptBuild.Proofs.Reference.Run
import ScriptBuild.Proofs.Reference.Set
import ScriptBuild.Proofs.Reference.Stability
import ScriptBuild.Proofs.Result
import ScriptBuild.Proofs.Shell.Host
import ScriptBuild.Proofs.Text.Blank
import ScriptBuild.Proofs.Text.Line
import ScriptBuild.Proofs.Text.Utf8
import ScriptBuild.Reference.Resolution
import ScriptBuild.Reference.Set
import ScriptBuild.Shell.Host
import ScriptBuild.Shell.Reader
import ScriptBuild.Shell.Run
import ScriptBuild.Shell.Script
import ScriptBuild.Shell.Token
import ScriptBuild.Shell.Utility
import ScriptBuild.Shell.Word
import ScriptBuild.Text.Blank
import ScriptBuild.Text.Line
import ScriptBuild.Text.Order
import ScriptBuild.Text.Utf8
import ScriptBuild.Text.Word
