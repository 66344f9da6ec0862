import CallBridge.Bridge.Claim
import CallBridge.Bridge.Session
import CallBridge.CText.Request
import CallBridge.Main
import CallBridge.Proofs.Sort.Course
import CallBridge.Proofs.Sort.Split
import CallBridge.Proofs.Sort.Arranged
import CallBridge.Proofs.Sort.Order
import CallBridge.Proofs.Sort.Tracked
import CallBridge.Proofs.Sort.Inquiry
import CallBridge.Proofs.Sort.Cursors
import CallBridge.Proofs.Sort.Tokens
import CallBridge.Proofs.Bridge.Callers
import CallBridge.Proofs.Bridge.ExactlyOnce
import CallBridge.Proofs.Bridge.Fabric
import CallBridge.Proofs.Bridge.Operations
import CallBridge.Proofs.Bridge.Frames
import CallBridge.Proofs.Bridge.LocalReference
import CallBridge.Proofs.Bridge.EntryPoints
import CallBridge.Proofs.Bridge.Globals
import CallBridge.Proofs.Bridge.Conservation
import CallBridge.Proofs.Bench.Inputs
import CallBridge.Proofs.Bridge.Untroubled
import CallBridge.Proofs.Check.Passing
import CallBridge.Proofs.Check.Properties
import CallBridge.Proofs.Bench.Calls
import CallBridge.Proofs.Bench.Accounting
import CallBridge.Proofs.Json.Grammar
import CallBridge.Proofs.Json.ReadBack
import CallBridge.Proofs.Json.Members
import CallBridge.Proofs.Json.Records
import CallBridge.Proofs.Log.Fields
import CallBridge.Proofs.Log.Rules
import CallBridge.Proofs.Log.RoundTrip
import CallBridge.Proofs.Log.Emission
import CallBridge.Proofs.Bridge.Resolution
import CallBridge.Proofs.Bridge.Requests
import CallBridge.Proofs.Bridge.Classes
import CallBridge.Proofs.Bridge.BoundForGood
import CallBridge.Proofs.Bridge.FailedBinding
import CallBridge.Proofs.Bridge.RawAddress
import CallBridge.Proofs.Sort.Signs
import CallBridge.Proofs.Bridge.Sites
import CallBridge.Proofs.Bridge.Apart
import CallBridge.Proofs.Bridge.Crossings
import CallBridge.Proofs.Bridge.Attachments
import CallBridge.Proofs.Bridge.Diagnostics
import CallBridge.Proofs.CText.SharedTable
import CallBridge.Proofs.Decimal.Rounding
import CallBridge.Proofs.Decimal.Shortest
import CallBridge.Proofs.Json.Doubles
import CallBridge.Proofs.Json.Values
import CallBridge.Proofs.Text.Lines
import CallBridge.Proofs.Log.Written
import CallBridge.Proofs.Host.Paths
import CallBridge.Proofs.Host.LogFile
import CallBridge.Proofs.Bench.Lines
import CallBridge.Proofs.CommandLine.Steps
import CallBridge.Proofs.CommandLine.Logging
import CallBridge.Proofs.CommandLine.LogLeft
import CallBridge.Proofs.CommandLine.Indexed
import CallBridge.Proofs.Sort.FewestCalls
import CallBridge.Proofs.Calendar.Days
import CallBridge.Proofs.Calendar.Words
import CallBridge.Proofs.Calendar.Instants
import CallBridge.Proofs.Bridge.Stages
import CallBridge.Proofs.Bridge.FirstQuestion
import CallBridge.Proofs.Bench.Streams
import CallBridge.Proofs.Bench.Shuffling
import CallBridge.Proofs.Bench.Correspondence
import CallBridge.Proofs.Bench.SideBySide
import CallBridge.Proofs.CText.Scanners
import CallBridge.Proofs.Log.Numbering
import CallBridge.Proofs.Log.LineByLine
import CallBridge.Proofs.Diagnostic.Lines
import CallBridge.Proofs.CommandLine.Seeds
import CallBridge.Proofs.Bench.ListArguments
import CallBridge.Proofs.Bench.Statistics
import CallBridge.Proofs.Json.Codecs
import CallBridge.Proofs.Json.Reports
import CallBridge.Proofs.Diagnostic.SharedByte
import CallBridge.Proofs.Sort.Nesting
