import MeshConsole.Bench.Clock
import MeshConsole.Bench.Console
import MeshConsole.Bench.Exchange
import MeshConsole.Bench.Script
import MeshConsole.Bench.Stage
import MeshConsole.Bench.Traffic
import MeshConsole.Bench.World
import MeshConsole.Build
import MeshConsole.Command.Activity
import MeshConsole.Command.Address
import MeshConsole.Command.Invocation
import MeshConsole.Command.Flag
import MeshConsole.Command.Listen
import MeshConsole.Command.Tree
import MeshConsole.Duration
import MeshConsole.Fault
import MeshConsole.Gateway.Device
import MeshConsole.Gateway.Health
import MeshConsole.Gateway.Job
import MeshConsole.Gateway.Limits
import MeshConsole.Gateway.LinkTable
import MeshConsole.Instant
import MeshConsole.Job.Call
import MeshConsole.Job.Run
import MeshConsole.Json.Lexical
import MeshConsole.Json.Peek
import MeshConsole.Json.Reader
import MeshConsole.Json.Strict
import MeshConsole.Json.Tree
import MeshConsole.Json.Value
import MeshConsole.Main
import MeshConsole.Memory
import MeshConsole.Numeral.Binary64
import MeshConsole.Numeral.Integer
import MeshConsole.Numeral.Scientific
import MeshConsole.Numeral.Shortest
import MeshConsole.Proofs.Job.Notices
import MeshConsole.Proofs.Job.Outstanding
import MeshConsole.Proofs.Json.Alike
import MeshConsole.Proofs.Json.Grammar
import MeshConsole.Proofs.Json.Object
import MeshConsole.Proofs.Json.Peek
import MeshConsole.Proofs.Json.Reading
import MeshConsole.Proofs.Json.Scalar
import MeshConsole.Proofs.Json.Spelling
import MeshConsole.Proofs.Json.Value
import MeshConsole.Proofs.Push.Accounting
import MeshConsole.Proofs.Push.Backoff
import MeshConsole.Proofs.Push.Classification
import MeshConsole.Proofs.Push.Course
import MeshConsole.Proofs.Push.DevicesPayload
import MeshConsole.Proofs.Push.Envelope
import MeshConsole.Proofs.Push.Gate
import MeshConsole.Proofs.Push.Pulls
import MeshConsole.Proofs.Push.Reconciliation
import MeshConsole.Proofs.Push.Reconnect
import MeshConsole.Proofs.Radio.Backing
import MeshConsole.Proofs.Radio.Freshness
import MeshConsole.Proofs.Radio.RouterHints
import MeshConsole.Proofs.Radio.Window
import MeshConsole.Proofs.Session.Adoption
import MeshConsole.Proofs.Session.DeviceList
import MeshConsole.Push.Backoff
import MeshConsole.Push.Endpoint
import MeshConsole.Push.Link
import MeshConsole.Push.Message
import MeshConsole.Push.Run
import MeshConsole.Radio.Monitor
import MeshConsole.Radio.Quality
import MeshConsole.Radio.View
import MeshConsole.Record.Bench
import MeshConsole.Record.Gateway
import MeshConsole.Record.Settings
import MeshConsole.Record.Telemetry
import MeshConsole.Rest.Call
import MeshConsole.Rest.Client
import MeshConsole.Session.Action
import MeshConsole.Session.Activity
import MeshConsole.Session.Intake
import MeshConsole.Session.State
import MeshConsole.Session.Task
import MeshConsole.Settings.Config
import MeshConsole.Settings.File
import MeshConsole.Settings.Key
import MeshConsole.Settings.Source
import MeshConsole.Simulator.Handler
import MeshConsole.Simulator.Incoming
import MeshConsole.Simulator.Job
import MeshConsole.Simulator.State
import MeshConsole.Simulator.Upgrade
import MeshConsole.Status.Figures
import MeshConsole.Status.Report
import MeshConsole.Table
import MeshConsole.Telemetry.Board
import MeshConsole.Telemetry.Collector
import MeshConsole.Telemetry.Event
import MeshConsole.Telemetry.Note
import MeshConsole.Telemetry.Ring
import MeshConsole.Text.Base64
import MeshConsole.Text.Basic
import MeshConsole.Text.Case
import MeshConsole.Text.Path
import MeshConsole.Text.Quoted
import MeshConsole.Text.Utf8
import MeshConsole.Url.Basic
import MeshConsole.Url.Escape
import MeshConsole.Url.Ipv6
import MeshConsole.Yaml.Document
import MeshConsole.Yaml.Moment
import MeshConsole.Yaml.Node
import MeshConsole.Yaml.Scalar
import MeshConsole.Yaml.Source
import MeshConsole.Yaml.Stream
import MeshConsole.Yaml.Token
import MeshConsole.Proofs.Push.Standing
import MeshConsole.Proofs.Telemetry.Reconnects
import MeshConsole.Proofs.Job.Submission
import MeshConsole.Proofs.Telemetry.JobBoard
import MeshConsole.Proofs.Telemetry.Recent
import MeshConsole.Proofs.Json.Escaping
import MeshConsole.Proofs.Numeral.Decimal
import MeshConsole.Proofs.Json.Fields
import MeshConsole.Proofs.Rest.Replies
import MeshConsole.Proofs.Rest.Requests
import MeshConsole.Proofs.Simulator.Serving
import MeshConsole.Proofs.Simulator.Polling
import MeshConsole.Proofs.Simulator.JobOutcome
import MeshConsole.Proofs.Push.WholeNumbers
import MeshConsole.Proofs.Json.RealText
import MeshConsole.Proofs.Json.Written
import MeshConsole.Proofs.Simulator.Frames
import MeshConsole.Proofs.Gateway.Records
import MeshConsole.Proofs.Simulator.Consulting
import MeshConsole.Proofs.Simulator.LinkTables
import MeshConsole.Proofs.Session.DevicePush
import MeshConsole.Proofs.Simulator.Delivery
import MeshConsole.Proofs.Rest.Success
import MeshConsole.Proofs.Session.Lifetime
import MeshConsole.Proofs.Session.Conduct
import MeshConsole.Proofs.Session.Upkeep
import MeshConsole.Proofs.Session.Teardown
import MeshConsole.Proofs.Session.Outlasting
import MeshConsole.Proofs.Session.Announcing
import MeshConsole.Proofs.Session.StatusUpdates
import MeshConsole.Proofs.Simulator.Requests
import MeshConsole.Proofs.Simulator.JobTurns
import MeshConsole.Proofs.Simulator.JobHistory
import MeshConsole.Proofs.Simulator.DeviceChanges
import MeshConsole.Proofs.Session.DeviceChange
import MeshConsole.Proofs.Session.Permits
import MeshConsole.Proofs.Session.Ticking
import MeshConsole.Proofs.Session.Refreshing
import MeshConsole.Proofs.Gateway.Limits
import MeshConsole.Proofs.Simulator.Instructions
import MeshConsole.Proofs.Simulator.WifiCredentials
import MeshConsole.Proofs.Json.Rereading
import MeshConsole.Proofs.Simulator.JobPayloads
import MeshConsole.Proofs.Command.GivenFlags
import MeshConsole.Proofs.Settings.Layers
import MeshConsole.Proofs.Settings.Durations
import MeshConsole.Proofs.Settings.Handover
import MeshConsole.Proofs.Push.PlainDigits
import MeshConsole.Proofs.Job.Deadline
import MeshConsole.Proofs.Telemetry.MessageRate
import MeshConsole.Proofs.Simulator.TableUpdates
import MeshConsole.Proofs.Gateway.Networks
import MeshConsole.Proofs.Simulator.Visit
import MeshConsole.Proofs.Simulator.Scanning
import MeshConsole.Proofs.Session.IndependentPulls
import MeshConsole.Proofs.Status.Grouping
import MeshConsole.Proofs.Status.Printing
import MeshConsole.Proofs.Status.Ranking
import MeshConsole.Proofs.Text.Bytes
import MeshConsole.Proofs.Numeral.Prefixed
import MeshConsole.Proofs.Command.Addresses
import MeshConsole.Proofs.Url.Escapes
import MeshConsole.Proofs.Url.Authority
import MeshConsole.Proofs.Url.Parts
import MeshConsole.Proofs.Push.Endpoint
import MeshConsole.Proofs.Bench.Hanging
import MeshConsole.Proofs.Bench.Exchanges
