import Strips.Action
import Strips.Arena
import Strips.Calendar
import Strips.CommandLine
import Strips.Decimal.Binary64
import Strips.Decimal.Shortest
import Strips.Fact
import Strips.Files.Path
import Strips.Files.Tree
import Strips.Graph
import Strips.Graph.Cover
import Strips.Graph.Level
import Strips.Graph.Report
import Strips.Graph.Search
import Strips.Graph.Solve
import Strips.Host
import Strips.Index
import Strips.Layer.Actions
import Strips.Layer.Facts
import Strips.Literal
import Strips.Literal.Indexed
import Strips.Literal.Set
import Strips.Main
import Strips.PairRelation
import Strips.Pddl.Export
import Strips.Pddl.Reference
import Strips.Pddl.Shortest
import Strips.Pddl.Task
import Strips.Plan
import Strips.Problem
import Strips.Proofs.Acceptance
import Strips.Proofs.ActionExclusions
import Strips.Proofs.Actors
import Strips.Proofs.Agreement
import Strips.Proofs.Bounds
import Strips.Proofs.Budget
import Strips.Proofs.BuiltLayers
import Strips.Proofs.Cells
import Strips.Proofs.Classes
import Strips.Proofs.Commutation
import Strips.Proofs.Conflicts
import Strips.Proofs.Consistency
import Strips.Proofs.Correspondence
import Strips.Proofs.CoverWalks
import Strips.Proofs.Covers
import Strips.Proofs.Declarations
import Strips.Proofs.DerivedFacts
import Strips.Proofs.Descent
import Strips.Proofs.DistinctPairs
import Strips.Proofs.Distinctness
import Strips.Proofs.Elaboration
import Strips.Proofs.Exclusions
import Strips.Proofs.ExitCodes
import Strips.Proofs.Exploration
import Strips.Proofs.ExportedPlans
import Strips.Proofs.Exporting
import Strips.Proofs.FileTrees
import Strips.Proofs.Filing
import Strips.Proofs.Finding
import Strips.Proofs.Fitting
import Strips.Proofs.FixedPoint
import Strips.Proofs.Forest
import Strips.Proofs.GoalBlocks
import Strips.Proofs.Grammar
import Strips.Proofs.Grounding
import Strips.Proofs.Growth
import Strips.Proofs.Halting
import Strips.Proofs.Hosting
import Strips.Proofs.Indexing
import Strips.Proofs.Ladder
import Strips.Proofs.LayerBuilding
import Strips.Proofs.Layers
import Strips.Proofs.Layout
import Strips.Proofs.Legibility
import Strips.Proofs.Loading
import Strips.Proofs.Makespan
import Strips.Proofs.Matching
import Strips.Proofs.MirroredGraphs
import Strips.Proofs.MirroredLayers
import Strips.Proofs.MirroredLevels
import Strips.Proofs.MirroredRounds
import Strips.Proofs.MutexSoundness
import Strips.Proofs.Names
import Strips.Proofs.Narrowing
import Strips.Proofs.NoGoods
import Strips.Proofs.Noops
import Strips.Proofs.OrderIndependence
import Strips.Proofs.Orders
import Strips.Proofs.Pairs
import Strips.Proofs.Parallel
import Strips.Proofs.Parsing
import Strips.Proofs.Partition
import Strips.Proofs.Persistence
import Strips.Proofs.PlainSearch
import Strips.Proofs.Progress
import Strips.Proofs.Reading
import Strips.Proofs.Reloading
import Strips.Proofs.Replaying
import Strips.Proofs.Restating
import Strips.Proofs.Rounds
import Strips.Proofs.RunRecords
import Strips.Proofs.Searching
import Strips.Proofs.ShortWays
import Strips.Proofs.Shortening
import Strips.Proofs.Soundness
import Strips.Proofs.Spelling
import Strips.Proofs.StrictLevels
import Strips.Proofs.StrictMode
import Strips.Proofs.Substitution
import Strips.Proofs.Termination
import Strips.Proofs.Unification
import Strips.Proofs.Unifying
import Strips.Proofs.Unions
import Strips.Proofs.Unsolvability
import Strips.RunLog
import Strips.RunLog.Record
import Strips.Schema
import Strips.Session
import Strips.Settings
import Strips.Statement
import Strips.Statement.Parser
import Strips.Step
import Strips.Text.CharClass
import Strips.Text.Integer
import Strips.Text.Json
import Strips.Text.LetterCase
import Strips.Text.Quoted
import Strips.Text.Table.Alphanumeric
import Strips.Text.Table.LetterCase
import Strips.Text.Table.Unprintable
import Strips.Text.Table.WordCase
import Strips.Token
import Strips.Token.Lexer
import Strips.Workbench
import Strips.Workbench.Actions
import Strips.Workbench.Graphs
import Strips.Workbench.Layers
import Strips.Workbench.Lookup
