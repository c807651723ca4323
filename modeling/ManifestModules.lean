import ManifestModules.Cache
import ManifestModules.CommandLine.Arguments
import ManifestModules.CommandLine.Evaluation
import ManifestModules.CommandLine.Overview
import ManifestModules.CommandLine.Run
import ManifestModules.CommandLine.Usage
import ManifestModules.Configuration
import ManifestModules.Decimal.Binary64
import ManifestModules.Decimal.Layout
import ManifestModules.Decimal.Shortest
import ManifestModules.Failure
import ManifestModules.FileSystem
import ManifestModules.FileSystem.Tree
import ManifestModules.Graph.Basic
import ManifestModules.Graph.Module
import ManifestModules.Graph.Order
import ManifestModules.Graph.Outline
import ManifestModules.Main
import ManifestModules.Module.Basic
import ManifestModules.Module.Evaluate
import ManifestModules.Module.Load
import ManifestModules.Module.Source
import ManifestModules.Number
import ManifestModules.Path
import ManifestModules.Power
import ManifestModules.Proofs.Effect
import ManifestModules.Proofs.Module.Agreement
import ManifestModules.Proofs.Module.Answers
import ManifestModules.Proofs.Module.CallByName
import ManifestModules.Proofs.Module.Calls
import ManifestModules.Proofs.Module.Consistent
import ManifestModules.Proofs.Module.Loaded
import ManifestModules.Proofs.Module.Marks
import ManifestModules.Proofs.Module.Memoization
import ManifestModules.Proofs.Module.Progress
import ManifestModules.Proofs.Module.Run
import ManifestModules.Proofs.Module.Tree
import ManifestModules.Proofs.Module.Unfolding
import ManifestModules.Proofs.Table
import ManifestModules.Proofs.Template.Correspondence
import ManifestModules.Proofs.Template.Identifiers
import ManifestModules.Section.Shape
import ManifestModules.Section.Text
import ManifestModules.Table
import ManifestModules.Template.Hole
import ManifestModules.Template.Lookup
import ManifestModules.Template.Substitute
import ManifestModules.Template.Suggest
import ManifestModules.Text.EditDistance
import ManifestModules.Text.Json
import ManifestModules.Text.Quoted
import ManifestModules.Text.Split
import ManifestModules.Text.Unicode
import ManifestModules.Toml
import ManifestModules.Trouble
import ManifestModules.Value.Basic
import ManifestModules.Value.Data
import ManifestModules.Value.Display
import ManifestModules.Value.Finite
import ManifestModules.Value.Json
import ManifestModules.Value.Yaml
import ManifestModules.Yaml.Anchor
import ManifestModules.Yaml.Char
import ManifestModules.Yaml.Cursor
import ManifestModules.Yaml.Data
import ManifestModules.Yaml.Document
import ManifestModules.Yaml.Node
import ManifestModules.Yaml.Problem
import ManifestModules.Yaml.Scalar
import ManifestModules.Yaml.Style
import ManifestModules.Yaml.Token
import ManifestModules.Yaml.Token.Lexer
import ManifestModules.Yaml.Token.Name
import ManifestModules.Yaml.Token.Scalar
import ManifestModules.Proofs.Module.Demand
import ManifestModules.Proofs.Module.OnDemand
import ManifestModules.Proofs.Module.Watch
import ManifestModules.Proofs.Module.Cycles
import ManifestModules.Proofs.Module.History
import ManifestModules.Proofs.Module.Conversions
import ManifestModules.Proofs.Relator
import ManifestModules.Proofs.Module.Likeness
import ManifestModules.Proofs.Module.Evaluation
import ManifestModules.Proofs.Cache
import ManifestModules.Proofs.Module.Loading
import ManifestModules.Proofs.Module.Requests
import ManifestModules.Proofs.Module.Session
import ManifestModules.Proofs.Graph.Walk
import ManifestModules.Proofs.Graph.Order
import ManifestModules.Proofs.Graph.Imports
import ManifestModules.Proofs.Module.Dependencies
import ManifestModules.Proofs.Module.Stack
import ManifestModules.Proofs.Module.Blame
import ManifestModules.Proofs.Template.Dialogue
import ManifestModules.Proofs.Module.Termination
import ManifestModules.Proofs.Graph.Edges
import ManifestModules.Proofs.Module.Outline
import ManifestModules.Proofs.Section.Grammar
import ManifestModules.Proofs.Template.Holes
import ManifestModules.Proofs.Template.Questions
import ManifestModules.Proofs.Template.Interview
import ManifestModules.Proofs.Module.Bare
import ManifestModules.Proofs.Module.Noninterference
import ManifestModules.Proofs.Module.Alternatives
import ManifestModules.Proofs.Path
import ManifestModules.Proofs.Section.Spelling
import ManifestModules.Proofs.Module.Spelling
import ManifestModules.Proofs.Template.Suggest
import ManifestModules.Proofs.Module.Reordering
import ManifestModules.Proofs.Graph.Cycles
import ManifestModules.Proofs.Path.Join
import ManifestModules.Proofs.Report
import ManifestModules.Proofs.Template.Occurrences
import ManifestModules.Proofs.Template.Filling
import ManifestModules.Proofs.Value.Data
import ManifestModules.Proofs.Module.Frame
import ManifestModules.Proofs.Module.Parameters
import ManifestModules.Proofs.Section.Text
import ManifestModules.Proofs.Graph.Store
import ManifestModules.Proofs.Graph.Rows
import ManifestModules.Proofs.Graph.Limit
import ManifestModules.Proofs.Graph.Drawing
import ManifestModules.Proofs.Module.Remarks
import ManifestModules.Proofs.Text.EditDistance
import ManifestModules.Proofs.Text.Split
import ManifestModules.Proofs.Template.Lookup
import ManifestModules.Proofs.Template.Whole
import ManifestModules.Proofs.CommandLine.Evaluation
import ManifestModules.Proofs.Decimal.Value
import ManifestModules.Proofs.Decimal.Shortest
import ManifestModules.Proofs.Decimal.Layout
import ManifestModules.Proofs.Number
