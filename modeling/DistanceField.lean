import DistanceField.Command.Build
import DistanceField.Command.Context
import DistanceField.Command.Flag
import DistanceField.Command.Grammar
import DistanceField.Command.Host
import DistanceField.Command.Line
import DistanceField.Command.Place
import DistanceField.Command.Point
import DistanceField.Command.Profile
import DistanceField.Command.Recompile
import DistanceField.Command.Report
import DistanceField.Command.Run
import DistanceField.Command.Shared
import DistanceField.Command.Table
import DistanceField.Compile.Cache
import DistanceField.Compile.Callers
import DistanceField.Compile.Hash
import DistanceField.Compile.Report
import DistanceField.Compile.Result
import DistanceField.Compile.Session
import DistanceField.Config.Document
import DistanceField.Config.Json
import DistanceField.Config.Resolve
import DistanceField.Config.Value
import DistanceField.Editor.Background
import DistanceField.Editor.Buffer
import DistanceField.Editor.Files
import DistanceField.Editor.Fuzzy
import DistanceField.Editor.Hint
import DistanceField.Editor.Model
import DistanceField.Editor.Perform
import DistanceField.Editor.Word
import DistanceField.Editor.Wrap
import DistanceField.Fault
import DistanceField.Log.Config
import DistanceField.Log.Flags
import DistanceField.Log.Level
import DistanceField.Log.Logger
import DistanceField.Log.Plain
import DistanceField.Log.Pretty
import DistanceField.Log.Record
import DistanceField.Log.Value
import DistanceField.Main
import DistanceField.Number.Angle
import DistanceField.Number.Decimal
import DistanceField.Number.Double
import DistanceField.Number.Integer
import DistanceField.Number.Natural
import DistanceField.Number.Read
import DistanceField.Number.Scalar
import DistanceField.Probe.Builtin
import DistanceField.Probe.Check
import DistanceField.Probe.Definition
import DistanceField.Probe.Evaluate
import DistanceField.Probe.Expr
import DistanceField.Probe.Program
import DistanceField.Probe.Token
import DistanceField.Probe.Value
import DistanceField.Proofs.Command.Output
import DistanceField.Proofs.Command.Restoring
import DistanceField.Proofs.Compile.Latest
import DistanceField.Proofs.Compile.Memory
import DistanceField.Proofs.Compile.Mirror
import DistanceField.Proofs.Compile.Overlap
import DistanceField.Proofs.Compile.Pointing
import DistanceField.Proofs.Compile.Sealed
import DistanceField.Proofs.Editor.Cycling
import DistanceField.Proofs.Editor.Detection
import DistanceField.Proofs.Editor.Rows
import DistanceField.Proofs.Editor.Schedule
import DistanceField.Proofs.Editor.Search
import DistanceField.Proofs.Editor.Submission
import DistanceField.Proofs.Editor.Text
import DistanceField.Proofs.Editor.Words
import DistanceField.Proofs.Fault.Identity
import DistanceField.Proofs.Fault.Sentinels
import DistanceField.Proofs.Growth
import DistanceField.Proofs.Lists
import DistanceField.Proofs.Log.Attached
import DistanceField.Proofs.Number.Bits
import DistanceField.Proofs.Number.Exact
import DistanceField.Proofs.Number.Literal
import DistanceField.Proofs.Number.Nearest
import DistanceField.Proofs.Number.Order
import DistanceField.Proofs.Number.Reading
import DistanceField.Proofs.Number.Shortest
import DistanceField.Proofs.Number.Whole
import DistanceField.Proofs.Probe.Calls
import DistanceField.Proofs.Probe.Code
import DistanceField.Proofs.Probe.Constant
import DistanceField.Proofs.Probe.Generated
import DistanceField.Proofs.Probe.Phrases
import DistanceField.Proofs.Probe.Spelling
import DistanceField.Proofs.Probe.Splitting
import DistanceField.Proofs.Probe.Tiling
import DistanceField.Proofs.Serve.Coherence
import DistanceField.Proofs.Serve.Listing
import DistanceField.Proofs.Serve.Tag
import DistanceField.Proofs.Serve.Tally
import DistanceField.Proofs.Shader.Contraction
import DistanceField.Proofs.Shader.Likeness
import DistanceField.Proofs.Shader.Literals
import DistanceField.Proofs.Shader.Magnitudes
import DistanceField.Proofs.Shader.Meaning
import DistanceField.Proofs.Shader.Nesting
import DistanceField.Proofs.Shader.Reading
import DistanceField.Proofs.Shader.Sampling
import DistanceField.Proofs.Shader.Sign
import DistanceField.Proofs.Shader.Space
import DistanceField.Proofs.Shader.Turn
import DistanceField.Proofs.Slices
import DistanceField.Proofs.Solid.Params
import DistanceField.Proofs.Source.Blaming
import DistanceField.Proofs.Source.Completeness
import DistanceField.Proofs.Source.Cutting
import DistanceField.Proofs.Source.Depth
import DistanceField.Proofs.Source.Enclosing
import DistanceField.Proofs.Source.Evaluation
import DistanceField.Proofs.Source.Following
import DistanceField.Proofs.Source.Fronts
import DistanceField.Proofs.Source.Grammar
import DistanceField.Proofs.Source.Halting
import DistanceField.Proofs.Source.Heads
import DistanceField.Proofs.Source.Layout
import DistanceField.Proofs.Source.Lexing
import DistanceField.Proofs.Source.Lookup
import DistanceField.Proofs.Source.Machine
import DistanceField.Proofs.Source.Pairs
import DistanceField.Proofs.Source.Parallel
import DistanceField.Proofs.Source.Parentheses
import DistanceField.Proofs.Source.Places
import DistanceField.Proofs.Source.Repeats
import DistanceField.Proofs.Source.Replay
import DistanceField.Proofs.Source.RoundTrip
import DistanceField.Proofs.Source.Safety
import DistanceField.Proofs.Source.Scanning
import DistanceField.Proofs.Source.Soundness
import DistanceField.Proofs.Source.Spans
import DistanceField.Proofs.Source.Streaming
import DistanceField.Proofs.Source.Strictness
import DistanceField.Proofs.Source.Trace
import DistanceField.Proofs.Text.Decoding
import DistanceField.Proofs.Text.Json
import DistanceField.Proofs.Text.Separators
import DistanceField.Proofs.Text.Trimming
import DistanceField.Proofs.Watch.Callbacks
import DistanceField.Proofs.Watch.Wakeup
import DistanceField.Serve.Address
import DistanceField.Serve.Delivery
import DistanceField.Serve.Etag
import DistanceField.Serve.Metrics
import DistanceField.Serve.Server
import DistanceField.Serve.Wire
import DistanceField.Shader.Generate
import DistanceField.Shader.Generator
import DistanceField.Shader.Literal
import DistanceField.Shader.Program
import DistanceField.Solid.Geometry
import DistanceField.Solid.Params
import DistanceField.Solid.Printer
import DistanceField.Solid.Shape
import DistanceField.Source.Complaint
import DistanceField.Source.Cursor
import DistanceField.Source.Formatter
import DistanceField.Source.Interval
import DistanceField.Source.Lexer
import DistanceField.Source.Parser
import DistanceField.Source.Stream
import DistanceField.Source.Token
import DistanceField.Source.Tree
import DistanceField.Storage.Disk
import DistanceField.Storage.Path
import DistanceField.Storage.Sink
import DistanceField.Text.Alphabet
import DistanceField.Text.Bytes
import DistanceField.Text.Calendar
import DistanceField.Text.Duration
import DistanceField.Text.Json
import DistanceField.Text.JsonReader
import DistanceField.Text.Layout
import DistanceField.Text.Letter
import DistanceField.Text.Printable
import DistanceField.Text.Quoted
import DistanceField.Text.Utf8
import DistanceField.Text.Width
import DistanceField.Watch.Debounce
import DistanceField.Watch.Event
import DistanceField.Watch.Watcher
import DistanceField.Yaml.Cursor
import DistanceField.Yaml.Excerpt
import DistanceField.Yaml.Flaw
import DistanceField.Yaml.Node
import DistanceField.Yaml.Phrase
import DistanceField.Yaml.Quote
import DistanceField.Yaml.Scalar
import DistanceField.Yaml.Scan
import DistanceField.Yaml.Token
