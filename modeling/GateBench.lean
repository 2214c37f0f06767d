import GateBench.CommandLine.Execute
import GateBench.CommandLine.Invocation
import GateBench.CommandLine.Switch
import GateBench.CommandLine.Workforce
import GateBench.Config.Basic
import GateBench.Config.Environment
import GateBench.Config.File
import GateBench.Config.Load
import GateBench.Dialogue
import GateBench.Dispatch.CheckText
import GateBench.Dispatch.Dispatcher
import GateBench.Dispatch.Document
import GateBench.Dispatch.Error
import GateBench.Dispatch.Lens
import GateBench.Display.DiagramText
import GateBench.Display.HistogramTable
import GateBench.Display.JsonLines
import GateBench.Display.Notice
import GateBench.Display.Panel
import GateBench.Display.Progress
import GateBench.Display.Recorder
import GateBench.Display.Terminal
import GateBench.Engine
import GateBench.Files
import GateBench.Histogram.Aggregator
import GateBench.Histogram.Basic
import GateBench.Json.Basic
import GateBench.Json.Decode
import GateBench.Json.Printer
import GateBench.Json.Reader
import GateBench.Json.Sorted
import GateBench.Main
import GateBench.Message.Codec
import GateBench.Message.Diagnostic
import GateBench.Message.Diagram
import GateBench.Message.Frame
import GateBench.Message.ProfileName
import GateBench.Message.Request
import GateBench.Message.Response
import GateBench.Number.Binary64
import GateBench.Number.Digits
import GateBench.Number.Shortest
import GateBench.Number.Unsigned
import GateBench.Program.BaseProfile
import GateBench.Program.Basic
import GateBench.Program.CallOrder
import GateBench.Program.Compile
import GateBench.Program.Diagram
import GateBench.Program.Error
import GateBench.Program.Flatten
import GateBench.Program.Gate
import GateBench.Program.Measure
import GateBench.Program.Parse
import GateBench.Program.Resolve
import GateBench.Program.Select
import GateBench.Proofs.Aggregation
import GateBench.Proofs.AngleGrammar
import GateBench.Proofs.BaseRule
import GateBench.Proofs.BasisStates
import GateBench.Proofs.Buckets
import GateBench.Proofs.ByteOrder
import GateBench.Proofs.CallForest
import GateBench.Proofs.CallWalk
import GateBench.Proofs.CheckedLookups
import GateBench.Proofs.CheckedPasses
import GateBench.Proofs.CheckedRuns
import GateBench.Proofs.CircuitReply
import GateBench.Proofs.ClassicalRun
import GateBench.Proofs.Cleanup
import GateBench.Proofs.ClearedQubits
import GateBench.Proofs.Compilation
import GateBench.Proofs.Conversations
import GateBench.Proofs.Crossing
import GateBench.Proofs.CycleReports
import GateBench.Proofs.Delivery
import GateBench.Proofs.Drawing
import GateBench.Proofs.EngineReplies
import GateBench.Proofs.FaithfulResolution
import GateBench.Proofs.Figures
import GateBench.Proofs.FrameCodec
import GateBench.Proofs.FrameOrder
import GateBench.Proofs.Framing
import GateBench.Proofs.Groups
import GateBench.Proofs.HandleLife
import GateBench.Proofs.HistogramRun
import GateBench.Proofs.HistogramViews
import GateBench.Proofs.Inlining
import GateBench.Proofs.Interchange
import GateBench.Proofs.JsonCodec
import GateBench.Proofs.JsonSurroundings
import GateBench.Proofs.JsonText
import GateBench.Proofs.LeafCounts
import GateBench.Proofs.LexemePatterns
import GateBench.Proofs.LocalCall
import GateBench.Proofs.Locations
import GateBench.Proofs.LongestMatch
import GateBench.Proofs.MarkedWalk
import GateBench.Proofs.MaximalMunch
import GateBench.Proofs.MemberOrder
import GateBench.Proofs.NameTables
import GateBench.Proofs.Operands
import GateBench.Proofs.PermutationGates
import GateBench.Proofs.PermutedStates
import GateBench.Proofs.PipeCalls
import GateBench.Proofs.PipeSessions
import GateBench.Proofs.Precedence
import GateBench.Proofs.ReadNames
import GateBench.Proofs.Readers
import GateBench.Proofs.Refreshes
import GateBench.Proofs.Renumbering
import GateBench.Proofs.Resolution
import GateBench.Proofs.ResultSlots
import GateBench.Proofs.Reuse
import GateBench.Proofs.Runs
import GateBench.Proofs.Selection
import GateBench.Proofs.ServeLoop
import GateBench.Proofs.Serving
import GateBench.Proofs.ShotRuns
import GateBench.Proofs.ShownNotices
import GateBench.Proofs.Silence
import GateBench.Proofs.SizeReports
import GateBench.Proofs.Slots
import GateBench.Proofs.SourceGrammar
import GateBench.Proofs.SourceLines
import GateBench.Proofs.SourceOrder
import GateBench.Proofs.StatedIds
import GateBench.Proofs.StatementGrammar
import GateBench.Proofs.SurfaceAccounts
import GateBench.Proofs.Tally
import GateBench.Proofs.TextLines
import GateBench.Proofs.TrimmedValues
import GateBench.Proofs.UnsignedDraws
import GateBench.Proofs.ViablePrefixes
import GateBench.QualifiedName
import GateBench.Simulation.Random
import GateBench.Simulation.Scalar
import GateBench.Simulation.Shots
import GateBench.Simulation.Statevector
import GateBench.Simulation.StatevectorEngine
import GateBench.Source
import GateBench.Syntax.Lexer
import GateBench.Syntax.Parser
import GateBench.Syntax.Token
import GateBench.Syntax.Tree
import GateBench.Text.Blank
import GateBench.Text.CaseTable
import GateBench.Text.Lines
import GateBench.Text.Lowercase
import GateBench.Text.Utf8
import GateBench.Worker.Error
import GateBench.Worker.Handle
import GateBench.Worker.Local
import GateBench.Worker.Pipe
import GateBench.Worker.Pool
import GateBench.Worker.Schedule
import GateBench.Worker.Script
import GateBench.Worker.Serve
import GateBench.Worker.ServeSchedule
import GateBench.Worker.Transport
import GateBench.Yaml.Cursor
import GateBench.Yaml.Decode
import GateBench.Yaml.Node
import GateBench.Yaml.Plain
import GateBench.Yaml.Printer
import GateBench.Yaml.Scalar
import GateBench.Yaml.Token
