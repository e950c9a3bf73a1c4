import Workflow.CommandLine.Arguments
import Workflow.CommandLine.Execution
import Workflow.CommandLine.Help
import Workflow.CommandLine.Invocation
import Workflow.CommandLine.Parameter
import Workflow.CommandLine.Settings
import Workflow.Compression.Checksum
import Workflow.Compression.Gzip
import Workflow.Compression.Inflate
import Workflow.Compression.PrefixCode
import Workflow.Condition.Operator
import Workflow.Config
import Workflow.Decimal.Binary
import Workflow.Decimal.Fixed
import Workflow.Decimal.Layout
import Workflow.Decimal.Numeral
import Workflow.Decimal.Shortest
import Workflow.Definition
import Workflow.Graph.Basic
import Workflow.Graph.Validation
import Workflow.Http.Exchange
import Workflow.Http.Host
import Workflow.Http.Method
import Workflow.Http.Percent
import Workflow.Http.Punycode
import Workflow.Http.Url
import Workflow.Json.Basic
import Workflow.Json.Decode
import Workflow.Json.Draft
import Workflow.Json.Number
import Workflow.Json.Printer
import Workflow.Json.Reader
import Workflow.Llm.ChatCompletion
import Workflow.Llm.ContentGeneration
import Workflow.Llm.Generator
import Workflow.Llm.Provider
import Workflow.Llm.Selection
import Workflow.Main
import Workflow.Node.Behavior
import Workflow.Node.Code
import Workflow.Node.Condition
import Workflow.Node.Delay
import Workflow.Node.Error
import Workflow.Node.Generation
import Workflow.Node.HttpRequest
import Workflow.Node.Init
import Workflow.Node.Policy
import Workflow.Node.Registry
import Workflow.Proofs.Attempts
import Workflow.Proofs.Branches
import Workflow.Proofs.BreadthFirst
import Workflow.Proofs.Building
import Workflow.Proofs.Choices
import Workflow.Proofs.Chronicle
import Workflow.Proofs.Clock
import Workflow.Proofs.Comparison
import Workflow.Proofs.Confinement
import Workflow.Proofs.Construction
import Workflow.Proofs.Cycles
import Workflow.Proofs.DataFlow
import Workflow.Proofs.Dates
import Workflow.Proofs.Deadlines
import Workflow.Proofs.Decoding
import Workflow.Proofs.Delays
import Workflow.Proofs.Doubles
import Workflow.Proofs.Endings
import Workflow.Proofs.Entries
import Workflow.Proofs.Equality
import Workflow.Proofs.ErrorHandlers
import Workflow.Proofs.Execution
import Workflow.Proofs.Fallible
import Workflow.Proofs.Files
import Workflow.Proofs.FirstOccurrences
import Workflow.Proofs.Floats
import Workflow.Proofs.Flow
import Workflow.Proofs.Forms
import Workflow.Proofs.GeneratedText
import Workflow.Proofs.Ids
import Workflow.Proofs.Interruption
import Workflow.Proofs.Isolation
import Workflow.Proofs.IterationCap
import Workflow.Proofs.LifeCycle
import Workflow.Proofs.Lines
import Workflow.Proofs.Listing
import Workflow.Proofs.Lookups
import Workflow.Proofs.NameSets
import Workflow.Proofs.Nearest
import Workflow.Proofs.Nesting
import Workflow.Proofs.NodeLists
import Workflow.Proofs.NodeOrder
import Workflow.Proofs.NormalForm
import Workflow.Proofs.Numerals
import Workflow.Proofs.Observation
import Workflow.Proofs.Operations
import Workflow.Proofs.Order
import Workflow.Proofs.Outcomes
import Workflow.Proofs.Outputs
import Workflow.Proofs.Paths
import Workflow.Proofs.Placeholders
import Workflow.Proofs.Placement
import Workflow.Proofs.Preorder
import Workflow.Proofs.Preparation
import Workflow.Proofs.Queries
import Workflow.Proofs.Queue
import Workflow.Proofs.Reachability
import Workflow.Proofs.Readability
import Workflow.Proofs.Reading
import Workflow.Proofs.Recording
import Workflow.Proofs.References
import Workflow.Proofs.Rendering
import Workflow.Proofs.Replies
import Workflow.Proofs.Requests
import Workflow.Proofs.Results
import Workflow.Proofs.Retries
import Workflow.Proofs.RoundTrip
import Workflow.Proofs.Rounding
import Workflow.Proofs.Schedule
import Workflow.Proofs.Scripts
import Workflow.Proofs.Search
import Workflow.Proofs.Seconds
import Workflow.Proofs.Shortest
import Workflow.Proofs.States
import Workflow.Proofs.Steps
import Workflow.Proofs.Sums
import Workflow.Proofs.Timestamps
import Workflow.Proofs.Validity
import Workflow.Run.Attempts
import Workflow.Run.Engine
import Workflow.Run.Id
import Workflow.Run.Prepared
import Workflow.Run.Result
import Workflow.Run.State
import Workflow.Run.Status
import Workflow.Run.Traversal
import Workflow.Script.Access
import Workflow.Script.Evaluation
import Workflow.Script.Fault
import Workflow.Script.Functions
import Workflow.Script.Lexer
import Workflow.Script.Limits
import Workflow.Script.Machine
import Workflow.Script.Operators
import Workflow.Script.Parser
import Workflow.Script.Program
import Workflow.Script.Run
import Workflow.Script.Token
import Workflow.Script.Value
import Workflow.Storage.Definitions
import Workflow.Storage.Path
import Workflow.Storage.RunLog
import Workflow.Storage.Tree
import Workflow.Template.Lookup
import Workflow.Template.Render
import Workflow.Text.Alphanumeric
import Workflow.Text.Base64
import Workflow.Text.Blank
import Workflow.Text.Case
import Workflow.Text.Find
import Workflow.Text.Hex
import Workflow.Text.Names
import Workflow.Text.Split
import Workflow.Text.Utf8
import Workflow.Time.Calendar
import Workflow.Time.Duration
import Workflow.Time.Timed
import Workflow.Time.Timestamp
import Workflow.Toml.Decode
import Workflow.Toml.Quoted
import Workflow.Toml.Reader
import Workflow.Toml.Scalar
import Workflow.Toml.Table
