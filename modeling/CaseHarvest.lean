import CaseHarvest.Binary64.Basic
import CaseHarvest.Binary64.Parse
import CaseHarvest.Binary64.Shortest
import CaseHarvest.Bytes
import CaseHarvest.Bytes.Word
import CaseHarvest.CommandLine.Arguments
import CaseHarvest.CommandLine.Filter
import CaseHarvest.CommandLine.Run
import CaseHarvest.Digest.Sha256
import CaseHarvest.Duration
import CaseHarvest.Engine
import CaseHarvest.Files.Access
import CaseHarvest.Files.Entries
import CaseHarvest.Files.Fault
import CaseHarvest.Files.Path
import CaseHarvest.Files.Tree
import CaseHarvest.Harvest.Basic
import CaseHarvest.Harvest.Gather
import CaseHarvest.Harvest.Report
import CaseHarvest.Harvest.Select
import CaseHarvest.Json.Basic
import CaseHarvest.Json.Parser
import CaseHarvest.Json.Pretty
import CaseHarvest.Layout
import CaseHarvest.Machine.Activity
import CaseHarvest.Machine.Basic
import CaseHarvest.Main
import CaseHarvest.Notice
import CaseHarvest.Proofs.Bytes.Hex
import CaseHarvest.Proofs.Bytes.Number
import CaseHarvest.Proofs.Bytes.Text
import CaseHarvest.Proofs.Files.Move
import CaseHarvest.Proofs.Files.Path
import CaseHarvest.Proofs.Files.Tree
import CaseHarvest.Proofs.Files.Vacant
import CaseHarvest.Proofs.Files.Walk
import CaseHarvest.Proofs.Harvest.Balance
import CaseHarvest.Proofs.Harvest.Document
import CaseHarvest.Proofs.Harvest.Outcome
import CaseHarvest.Proofs.Json.Numeral
import CaseHarvest.Proofs.Json.ReadBack
import CaseHarvest.Proofs.Record.Codec
import CaseHarvest.Proofs.Record.Dedup
import CaseHarvest.Proofs.Record.Delivery
import CaseHarvest.Proofs.Record.Fingerprint
import CaseHarvest.Proofs.Record.Reading
import CaseHarvest.Proofs.Record.Streaming
import CaseHarvest.Proofs.Record.Truncation
import CaseHarvest.Proofs.Session.Close
import CaseHarvest.Proofs.Session.Frame
import CaseHarvest.Proofs.Session.Isolation
import CaseHarvest.Proofs.Session.Reports
import CaseHarvest.Proofs.Session.Visits
import CaseHarvest.Proofs.Suite.Atomicity
import CaseHarvest.Proofs.Suite.Document
import CaseHarvest.Proofs.Suite.Persist
import CaseHarvest.Proofs.Suite.Temporary
import CaseHarvest.Record.Basic
import CaseHarvest.Record.ByteSource
import CaseHarvest.Record.Decode
import CaseHarvest.Record.Dump
import CaseHarvest.Record.Encode
import CaseHarvest.Record.Extract
import CaseHarvest.Record.Fingerprint
import CaseHarvest.Record.Snapshot
import CaseHarvest.Regex.Basic
import CaseHarvest.Regex.CharSet
import CaseHarvest.Regex.Parser
import CaseHarvest.Rehearsal.Arithmetic
import CaseHarvest.Rehearsal.Builtin
import CaseHarvest.Rehearsal.Condition
import CaseHarvest.Rehearsal.Disk
import CaseHarvest.Rehearsal.Expansion
import CaseHarvest.Rehearsal.FilePrograms
import CaseHarvest.Rehearsal.Format
import CaseHarvest.Rehearsal.Launch
import CaseHarvest.Rehearsal.Lexer
import CaseHarvest.Rehearsal.Octets
import CaseHarvest.Rehearsal.Parser
import CaseHarvest.Rehearsal.Pattern
import CaseHarvest.Rehearsal.Program
import CaseHarvest.Rehearsal.Programs
import CaseHarvest.Rehearsal.Script
import CaseHarvest.Rehearsal.Step
import CaseHarvest.Rehearsal.TextPrograms
import CaseHarvest.Rehearsal.World
import CaseHarvest.Session
import CaseHarvest.Settings.Basic
import CaseHarvest.Settings.Fields
import CaseHarvest.Settings.Load
import CaseHarvest.Settings.Override
import CaseHarvest.Suite.Basic
import CaseHarvest.Suite.Document
import CaseHarvest.Suite.Persist
import CaseHarvest.Text.Pieces
import CaseHarvest.Text.Quoted
import CaseHarvest.Text.Visible
import CaseHarvest.Value
import CaseHarvest.ValueReader
import CaseHarvest.Yaml.Document
import CaseHarvest.Yaml.Event
import CaseHarvest.Yaml.Spot
import CaseHarvest.Yaml.Token.Basic
import CaseHarvest.Yaml.Token.Scalar
import CaseHarvest.Yaml.Token.Scan
import CaseHarvest.Yaml.Token.Tag
import CaseHarvest.Proofs.Bytes.Payload
import CaseHarvest.Proofs.Value.Meaning
import CaseHarvest.Proofs.Suite.Input
import CaseHarvest.Proofs.Digest.Portions
import CaseHarvest.Proofs.Record.Canonical
import CaseHarvest.Proofs.Record.Grammar
import CaseHarvest.Proofs.Bytes.Literal
import CaseHarvest.Proofs.Record.DumpLines
import CaseHarvest.Proofs.Record.DumpReading
import CaseHarvest.Proofs.Record.Extract
import CaseHarvest.Proofs.Binary64.Rounding
import CaseHarvest.Proofs.Settings.Timeout
import CaseHarvest.Proofs.Files.Suffix
import CaseHarvest.Proofs.Harvest.Suffix
import CaseHarvest.Proofs.Rehearsal.Groups
import CaseHarvest.Proofs.Harvest.Order
import CaseHarvest.Proofs.Files.Components
import CaseHarvest.Proofs.Settings.Layers
import CaseHarvest.Proofs.Session.Ownership
import CaseHarvest.Proofs.CommandLine.Settings
import CaseHarvest.Proofs.CommandLine.Show
import CaseHarvest.Proofs.Record.Snapshot
