import DecisionTree.Command.Arguments
import DecisionTree.Command.Help
import DecisionTree.Command.Invocation
import DecisionTree.Command.List
import DecisionTree.Command.Loading
import DecisionTree.Command.Outcome
import DecisionTree.Command.RecordInput
import DecisionTree.Command.Run
import DecisionTree.Command.Score
import DecisionTree.Decimal.Basic
import DecisionTree.Decimal.Nearest
import DecisionTree.Decimal.Notation
import DecisionTree.Decimal.Shortest
import DecisionTree.Files.Directory
import DecisionTree.Files.Draft
import DecisionTree.Files.Host
import DecisionTree.Files.Memory
import DecisionTree.Files.Path
import DecisionTree.Glob.Pattern
import DecisionTree.Glob.Search
import DecisionTree.Json.Basic
import DecisionTree.Json.Reader
import DecisionTree.Json.Writer
import DecisionTree.Main
import DecisionTree.Model
import DecisionTree.Number
import DecisionTree.Pmml.Array
import DecisionTree.Pmml.Document
import DecisionTree.Pmml.Error
import DecisionTree.Pmml.Node
import DecisionTree.Pmml.Predicate
import DecisionTree.Predicate.Basic
import DecisionTree.Predicate.Error
import DecisionTree.Predicate.Evaluation
import DecisionTree.Predicate.Operator
import DecisionTree.Proofs.Command.Layers
import DecisionTree.Proofs.Command.Stages
import DecisionTree.Proofs.Json.Numbers
import DecisionTree.Proofs.Json.Outline
import DecisionTree.Proofs.Json.Reading
import DecisionTree.Proofs.Json.Strings
import DecisionTree.Proofs.Model.CompleteRecord
import DecisionTree.Proofs.Model.Confidence
import DecisionTree.Proofs.Model.Failure
import DecisionTree.Proofs.Model.Sets
import DecisionTree.Proofs.Model.Usable
import DecisionTree.Proofs.Number.Amount
import DecisionTree.Proofs.Number.Encoding
import DecisionTree.Proofs.Number.Finite
import DecisionTree.Proofs.Number.Notation
import DecisionTree.Proofs.Number.Operations
import DecisionTree.Proofs.Number.Order
import DecisionTree.Proofs.Number.Rounding
import DecisionTree.Proofs.Number.Shortest
import DecisionTree.Proofs.Pmml.Alike
import DecisionTree.Proofs.Pmml.Array
import DecisionTree.Proofs.Pmml.Document
import DecisionTree.Proofs.Pmml.Extensions
import DecisionTree.Proofs.Pmml.Grammar
import DecisionTree.Proofs.Pmml.Predicate
import DecisionTree.Proofs.Pmml.Reading
import DecisionTree.Proofs.Pmml.Registration
import DecisionTree.Proofs.Pmml.Remarks
import DecisionTree.Proofs.Pmml.Rendering
import DecisionTree.Proofs.Pmml.Spelling
import DecisionTree.Proofs.Pmml.TreeModels
import DecisionTree.Proofs.Pmml.Words
import DecisionTree.Proofs.Predicate.Comparison
import DecisionTree.Proofs.Predicate.Complement
import DecisionTree.Proofs.Predicate.Completeness
import DecisionTree.Proofs.Predicate.Compound
import DecisionTree.Proofs.Predicate.Evaluation
import DecisionTree.Proofs.Predicate.Extension
import DecisionTree.Proofs.Predicate.Failure
import DecisionTree.Proofs.Predicate.Fields
import DecisionTree.Proofs.Predicate.Kleene
import DecisionTree.Proofs.Predicate.Membership
import DecisionTree.Proofs.Predicate.Monotonicity
import DecisionTree.Proofs.Predicate.NormalForm
import DecisionTree.Proofs.Predicate.Parts
import DecisionTree.Proofs.Predicate.Trichotomy
import DecisionTree.Proofs.Record.Assignment
import DecisionTree.Proofs.Record.Json
import DecisionTree.Proofs.Record.Overlay
import DecisionTree.Proofs.Record.Written
import DecisionTree.Proofs.Registry.Merge
import DecisionTree.Proofs.Registry.MergeAll
import DecisionTree.Proofs.Report.Decoding
import DecisionTree.Proofs.Report.Lines
import DecisionTree.Proofs.Sequence
import DecisionTree.Proofs.Settings.Json
import DecisionTree.Proofs.Table
import DecisionTree.Proofs.Text.Blank
import DecisionTree.Proofs.Text.Encoding
import DecisionTree.Proofs.Text.Keyword
import DecisionTree.Proofs.Text.Split
import DecisionTree.Proofs.Tree.Ambiguity
import DecisionTree.Proofs.Tree.Appearance
import DecisionTree.Proofs.Tree.BigStep
import DecisionTree.Proofs.Tree.Complementary
import DecisionTree.Proofs.Tree.Decided
import DecisionTree.Proofs.Tree.Information
import DecisionTree.Proofs.Tree.Nodes
import DecisionTree.Proofs.Tree.Relevance
import DecisionTree.Proofs.Tree.Replacement
import DecisionTree.Proofs.Tree.Siblings
import DecisionTree.Proofs.Tree.Step
import DecisionTree.Proofs.Tree.Strategies
import DecisionTree.Proofs.Tree.Walk
import DecisionTree.Proofs.Truth
import DecisionTree.Proofs.Validation.Findings
import DecisionTree.Proofs.Validation.Violations
import DecisionTree.Proofs.Value
import DecisionTree.Record
import DecisionTree.Record.Json
import DecisionTree.Registry
import DecisionTree.Report.Prediction
import DecisionTree.Report.Style
import DecisionTree.Report.Summary
import DecisionTree.Settings.Basic
import DecisionTree.Settings.File
import DecisionTree.Settings.Filter
import DecisionTree.Settings.Json
import DecisionTree.Settings.Slots
import DecisionTree.Settings.Validation
import DecisionTree.Settings.Yaml
import DecisionTree.Strategy
import DecisionTree.Table
import DecisionTree.Text.Base64
import DecisionTree.Text.Blank
import DecisionTree.Text.Digits
import DecisionTree.Text.Keyword
import DecisionTree.Text.Split
import DecisionTree.Tree.Node
import DecisionTree.Tree.Scoring
import DecisionTree.Truth
import DecisionTree.Validation
import DecisionTree.Value
import DecisionTree.Xml.Character
import DecisionTree.Xml.Content
import DecisionTree.Xml.Document
import DecisionTree.Xml.Reference
import DecisionTree.Xml.Token
import DecisionTree.Yaml.Basic
import DecisionTree.Yaml.Block
import DecisionTree.Yaml.Layout
import DecisionTree.Yaml.Merge
import DecisionTree.Yaml.Place
import DecisionTree.Yaml.Reader
import DecisionTree.Yaml.Scalar
import DecisionTree.Yaml.Token
