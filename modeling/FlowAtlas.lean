import FlowAtlas.Analysis.Basic
import FlowAtlas.Analysis.Summary
import FlowAtlas.CallGraph.Basic
import FlowAtlas.CallGraph.Reach
import FlowAtlas.CallGraph.Report
import FlowAtlas.CallGraph.Resolution
import FlowAtlas.CommandLine.Command
import FlowAtlas.CommandLine.Grammar
import FlowAtlas.CommandLine.Parsing
import FlowAtlas.CommandLine.Running
import FlowAtlas.Config
import FlowAtlas.Decimal.Binary64
import FlowAtlas.Decimal.Shortest
import FlowAtlas.Diagram.Basic
import FlowAtlas.Diagram.Mermaid
import FlowAtlas.Diagram.NodeId
import FlowAtlas.Diagram.Synthesis
import FlowAtlas.Extraction.Braced
import FlowAtlas.Extraction.Code
import FlowAtlas.Extraction.Decision
import FlowAtlas.Extraction.Declaration
import FlowAtlas.Extraction.File
import FlowAtlas.Extraction.Findings
import FlowAtlas.Extraction.Forms.Basic
import FlowAtlas.Extraction.Forms.Brace
import FlowAtlas.Extraction.Forms.Generic
import FlowAtlas.Extraction.Forms.Indent
import FlowAtlas.Extraction.Indented
import FlowAtlas.Extraction.Reserved
import FlowAtlas.Fields.Checked
import FlowAtlas.Fields.Record
import FlowAtlas.Fields.Scalar
import FlowAtlas.Fields.WrittenInteger
import FlowAtlas.Json.Basic
import FlowAtlas.Json.Described
import FlowAtlas.Json.Reader
import FlowAtlas.Json.Writer
import FlowAtlas.Layer
import FlowAtlas.Log
import FlowAtlas.Main
import FlowAtlas.Naming.Title
import FlowAtlas.Naming.Words
import FlowAtlas.Pattern.Basic
import FlowAtlas.Pattern.Caseless
import FlowAtlas.Pattern.Search
import FlowAtlas.Proofs.Analysis.Consistent
import FlowAtlas.Proofs.Analysis.Reordering
import FlowAtlas.Proofs.Analysis.Routines
import FlowAtlas.Proofs.Analysis.Selected
import FlowAtlas.Proofs.CallGraph.Building
import FlowAtlas.Proofs.CallGraph.Coherence
import FlowAtlas.Proofs.CallGraph.Distances
import FlowAtlas.Proofs.CallGraph.Paths
import FlowAtlas.Proofs.CallGraph.Reaching
import FlowAtlas.Proofs.CallGraph.Reports
import FlowAtlas.Proofs.CallGraph.Resolution
import FlowAtlas.Proofs.CallGraph.SimplePaths
import FlowAtlas.Proofs.Classification
import FlowAtlas.Proofs.Decimal.Overflow
import FlowAtlas.Proofs.Diagram.Chain
import FlowAtlas.Proofs.Diagram.Emission
import FlowAtlas.Proofs.Diagram.Flow
import FlowAtlas.Proofs.Diagram.Labels
import FlowAtlas.Proofs.Diagram.NodeOrder
import FlowAtlas.Proofs.Diagram.Parts
import FlowAtlas.Proofs.Diagram.Rendering
import FlowAtlas.Proofs.Diagram.Shown
import FlowAtlas.Proofs.Diagram.Statements
import FlowAtlas.Proofs.Diagram.Unlinked
import FlowAtlas.Proofs.Extraction.Attribution
import FlowAtlas.Proofs.Extraction.CalledNames
import FlowAtlas.Proofs.Extraction.Changes
import FlowAtlas.Proofs.Extraction.Comments
import FlowAtlas.Proofs.Extraction.DeclaredNames
import FlowAtlas.Proofs.Extraction.Growth
import FlowAtlas.Proofs.Extraction.Hidden
import FlowAtlas.Proofs.Extraction.Ids
import FlowAtlas.Proofs.Extraction.Legible
import FlowAtlas.Proofs.Extraction.Lexing
import FlowAtlas.Proofs.Extraction.LineCode
import FlowAtlas.Proofs.Extraction.Literals
import FlowAtlas.Proofs.Extraction.Nesting
import FlowAtlas.Proofs.Extraction.Offside
import FlowAtlas.Proofs.Extraction.OffsideScan
import FlowAtlas.Proofs.Extraction.Quoting
import FlowAtlas.Proofs.Extraction.Runs
import FlowAtlas.Proofs.Extraction.Unlisted
import FlowAtlas.Proofs.Fields.Bounds
import FlowAtlas.Proofs.Naming.Titles
import FlowAtlas.Proofs.Pattern.Reading
import FlowAtlas.Proofs.Query.Paths
import FlowAtlas.Proofs.Query.Symbols
import FlowAtlas.Proofs.Ranking.Cap
import FlowAtlas.Proofs.Ranking.Choice
import FlowAtlas.Proofs.Ranking.Coverage
import FlowAtlas.Proofs.Ranking.Order
import FlowAtlas.Proofs.Ranking.Phases
import FlowAtlas.Proofs.Ranking.Unlinked
import FlowAtlas.Proofs.Service.Fallback
import FlowAtlas.Proofs.Table
import FlowAtlas.Proofs.Text.Lines
import FlowAtlas.Proofs.Text.Separators
import FlowAtlas.Proofs.Tree.Places
import FlowAtlas.Proofs.Tree.Survey
import FlowAtlas.Proofs.Tree.Visit
import FlowAtlas.Query.Answer
import FlowAtlas.Query.Basic
import FlowAtlas.Ranking.Importance
import FlowAtlas.Ranking.Selection
import FlowAtlas.Record.Analysis
import FlowAtlas.Record.Diagram
import FlowAtlas.Record.Report
import FlowAtlas.Record.Source
import FlowAtlas.Record.Summary
import FlowAtlas.Service.Alert
import FlowAtlas.Service.Augmentation
import FlowAtlas.Service.Client
import FlowAtlas.Service.Failure
import FlowAtlas.Service.Flowchart
import FlowAtlas.Service.Prompt
import FlowAtlas.Source.Dialect
import FlowAtlas.Source.Extraction
import FlowAtlas.Source.Routine
import FlowAtlas.Surroundings
import FlowAtlas.Table
import FlowAtlas.Text.Case
import FlowAtlas.Text.CaseRanges
import FlowAtlas.Text.Character
import FlowAtlas.Text.DecimalZeros
import FlowAtlas.Text.Integer
import FlowAtlas.Text.Lines
import FlowAtlas.Text.Order
import FlowAtlas.Text.Pieces
import FlowAtlas.Text.Quoted
import FlowAtlas.Text.UnprintableRanges
import FlowAtlas.Text.Utf8
import FlowAtlas.Text.WordRanges
import FlowAtlas.Timestamp
import FlowAtlas.Tree.Basic
import FlowAtlas.Tree.FileSystem
import FlowAtlas.Tree.Path
import FlowAtlas.Tree.Walk
import FlowAtlas.Proofs.Extraction.Namesakes
import FlowAtlas.Proofs.Extraction.Openings
import FlowAtlas.Proofs.Service.Refusals
import FlowAtlas.Proofs.Pattern.Spelling
import FlowAtlas.Proofs.Extraction.Shorthand
import FlowAtlas.Proofs.Extraction.Outlines
import FlowAtlas.Proofs.Extraction.Trailing
import FlowAtlas.Proofs.Extraction.BracePlacement
import FlowAtlas.Proofs.Extraction.Declared
import FlowAtlas.Proofs.Extraction.Exports
import FlowAtlas.Proofs.Extraction.TypedHeads
import FlowAtlas.Proofs.Extraction.BlockStatements
import FlowAtlas.Proofs.Extraction.Escapes
import FlowAtlas.Proofs.Extraction.QuotedNames
import FlowAtlas.Proofs.Extraction.PublicNames
import FlowAtlas.Proofs.Text.Margins
import FlowAtlas.Proofs.Extraction.Margins
import FlowAtlas.Proofs.Extraction.Moved
import FlowAtlas.Proofs.Extraction.EmptyLines
import FlowAtlas.Proofs.Extraction.Methods
import FlowAtlas.Proofs.Diagram.Drawn
import FlowAtlas.Proofs.Service.Fences
import FlowAtlas.Proofs.Pattern.Matches
import FlowAtlas.Proofs.Naming.Letters
import FlowAtlas.Proofs.Diagram.Visible
import FlowAtlas.Proofs.Service.Replies
import FlowAtlas.Proofs.Extraction.LongestMatch
import FlowAtlas.Proofs.Diagram.NodeIds
import FlowAtlas.Proofs.Naming.Words
import FlowAtlas.Proofs.Extraction.BlockComments
