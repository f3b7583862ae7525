import NetIntent.Cluster
import NetIntent.Context.App
import NetIntent.Context.Run
import NetIntent.Context.Values
import NetIntent.Data.Alphanumeric
import NetIntent.Data.Blank
import NetIntent.Data.OrderedMap
import NetIntent.Data.Text
import NetIntent.Deployment
import NetIntent.Error
import NetIntent.Handle.Basic
import NetIntent.Handle.Key
import NetIntent.Intent
import NetIntent.Json.Fields
import NetIntent.Json.Literal
import NetIntent.Json.Printer
import NetIntent.Json.Value
import NetIntent.Ledger
import NetIntent.Lifecycle
import NetIntent.Metadata
import NetIntent.Number.Binary64
import NetIntent.Number.Shortest
import NetIntent.Report.Gather
import NetIntent.Report.Object
import NetIntent.Report.Query
import NetIntent.Report.Snapshot
import NetIntent.Report.Status
import NetIntent.Service
import NetIntent.Settings.Basic
import NetIntent.Settings.EnvFile
import NetIntent.Store.Context
import NetIntent.Store.Document
import NetIntent.Store.Fault
import NetIntent.Synchronizer
import NetIntent.Time.Reader
import NetIntent.Time.Timestamp
import NetIntent.World
import NetIntent.Yaml.Character
import NetIntent.Yaml.Content
import NetIntent.Yaml.Lexer
import NetIntent.Yaml.Node
import NetIntent.Yaml.Plain
import NetIntent.Yaml.Property
import NetIntent.Yaml.Scalar
import NetIntent.Yaml.Token
import NetIntent.Yaml.Value
import NetIntent.Yaml.Writer
import NetIntent.Proofs.DocumentStore
import NetIntent.Proofs.DocumentTable
import NetIntent.Proofs.Calendar
import NetIntent.Proofs.Timestamp
import NetIntent.Proofs.Records
import NetIntent.Proofs.Operation
import NetIntent.Proofs.Registry
import NetIntent.Proofs.AppContext
import NetIntent.Proofs.ContextNodes
import NetIntent.Proofs.Deployment
import NetIntent.Proofs.Undisturbed
import NetIntent.Proofs.Lookups
import NetIntent.Proofs.Run
import NetIntent.Proofs.Ledgers
import NetIntent.Proofs.Declarations
import NetIntent.Proofs.ContextFrame
import NetIntent.Proofs.Installed
import NetIntent.Proofs.Accounted
import NetIntent.Proofs.AllOrNothing
import NetIntent.Proofs.HandleParse
import NetIntent.Proofs.Subtree
import NetIntent.Proofs.Requests
import NetIntent.Proofs.Statuses
import NetIntent.Proofs.ContextReport
import NetIntent.Proofs.Deletion
import NetIntent.Proofs.Outcomes
import NetIntent.Proofs.Effects
import NetIntent.Proofs.Reporting
import NetIntent.Proofs.StatusReport
import NetIntent.Proofs.Progress
import NetIntent.Proofs.Ownership
import NetIntent.Proofs.Writes
import NetIntent.Proofs.Termination
import NetIntent.Proofs.Naming
import NetIntent.Proofs.Registration
import NetIntent.Proofs.Areas
import NetIntent.Proofs.Locality
import NetIntent.Proofs.Independence
import NetIntent.Proofs.ReportView
import NetIntent.Proofs.Counting
import NetIntent.Proofs.Findings
import NetIntent.Proofs.Reportable
import NetIntent.Proofs.Discrepancy
import NetIntent.Proofs.Placement
import NetIntent.Proofs.Resilience
import NetIntent.Proofs.Snapshots
import NetIntent.Proofs.Additions
import NetIntent.Proofs.Listings
import NetIntent.Proofs.Finality
import NetIntent.Proofs.ObjectBodies
import NetIntent.Proofs.Bytes
import NetIntent.Proofs.Scans
import NetIntent.Proofs.ResourceHandles
import NetIntent.Proofs.Binding
