import PhotoBridge.Lib.Transaction
import PhotoBridge.Db.Proofs.Realise
import PhotoBridge.Db.Proofs.Fencing
import PhotoBridge.Writer.Proofs.Thread
import PhotoBridge.Copy.Proofs.Agreement
import PhotoBridge.Lib.Attempt
import PhotoBridge.Copy.Proofs.Faulty
import PhotoBridge.Pipeline.Files
import PhotoBridge.Pipeline.Guard
import PhotoBridge.Pipeline.Audit
import PhotoBridge.Pipeline.Verify
import PhotoBridge.Pipeline.Proofs.Files
import PhotoBridge.Pipeline.Proofs.Guard
import PhotoBridge.Pipeline.Proofs.Reading
import PhotoBridge.Pipeline.Proofs.Audit
import PhotoBridge.Pipeline.Proofs.Verify
import PhotoBridge.Db.Proofs.Atomicity
import PhotoBridge.Lib.Footprint
import PhotoBridge.Db.Proofs.Movement
import PhotoBridge.Db.Lineage
import PhotoBridge.Db.Proofs.Lineage
import PhotoBridge.Db.Claims
import PhotoBridge.Db.Proofs.Claims
import PhotoBridge.Db.Proofs.Receipts
import PhotoBridge.Db.Proofs.Events
import PhotoBridge.Lib.Heed
import PhotoBridge.Pipeline.Materialize
import PhotoBridge.Pipeline.Proofs.Materialize
import PhotoBridge.Lib.Delimited
import PhotoBridge.Lib.Sorting
import PhotoBridge.Plan.Canonical
import PhotoBridge.Plan.Proofs.Canonical
import PhotoBridge.Lib.Json
import PhotoBridge.Lib.JsonCompact
import PhotoBridge.Plan.Artifact
import PhotoBridge.Plan.Proofs.Artifact
import PhotoBridge.Pipeline.Planning
import PhotoBridge.Lib.Joining
import PhotoBridge.Manifest.Proofs.Digest
import PhotoBridge.Scan.Proofs.Frozen
import PhotoBridge.Pipeline.Proofs.Planning
import PhotoBridge.Pipeline.Proofs.Publish
import PhotoBridge.Lib.KeyTree
import PhotoBridge.Scan.Walker
import PhotoBridge.Scan.Proofs.Walker
import PhotoBridge.Scan.Builder
import PhotoBridge.Scan.Proofs.Builder
import PhotoBridge.Scan.Proofs.Scan
import PhotoBridge.Db.Proofs.Batches
import PhotoBridge.Lib.Concurrent
import PhotoBridge.Lib.SharedConnection
import PhotoBridge.Upload.Names
import PhotoBridge.Upload.Schema
import PhotoBridge.Upload.Store
import PhotoBridge.Upload.Effects
import PhotoBridge.Upload.Proofs.Isolation
import PhotoBridge.Upload.Proofs.Interleaving
import PhotoBridge.Upload.Host
import PhotoBridge.Upload.Proofs.Tables
import PhotoBridge.Upload.Proofs.Host
import PhotoBridge.Upload.Proofs.Reachable
import PhotoBridge.Upload.System
import PhotoBridge.Upload.Proofs.Rows
import PhotoBridge.Upload.Proofs.Custody
import PhotoBridge.Upload.Proofs.Publishing
import PhotoBridge.Upload.Proofs.Handler
import PhotoBridge.Upload.Proofs.Put
import PhotoBridge.Upload.Proofs.Recovery
import PhotoBridge.Upload.Proofs.Receiver
import PhotoBridge.Upload.Proofs.Durable
import PhotoBridge.Upload.Proofs.Exclusive
import PhotoBridge.Upload.Proofs.Names
import PhotoBridge.Upload.Proofs.Visible
import PhotoBridge.Upload.Proofs.Assigned
import PhotoBridge.Upload.Token
import PhotoBridge.Upload.Proofs.Token
import PhotoBridge.Lib.Forest
import PhotoBridge.Takeout.Metadata
import PhotoBridge.Takeout.Association
import PhotoBridge.Takeout.Proofs.Components
import PhotoBridge.Takeout.Parser
import PhotoBridge.Lib.Grouping
import PhotoBridge.Takeout.Outcomes
import PhotoBridge.Takeout.Proofs.Keys
import PhotoBridge.Takeout.Proofs.Outcomes
import PhotoBridge.Takeout.Proofs.Reports
import PhotoBridge.Takeout.Proofs.Metadata
import PhotoBridge.Takeout.Proofs.Timestamp
import PhotoBridge.Takeout.Proofs.Order
import PhotoBridge.Plan.Proofs.Integers
import PhotoBridge.Plan.Proofs.Limits
import PhotoBridge.Plan.Proofs.Mapping
import PhotoBridge.Pipeline.Reconcile
import PhotoBridge.Pipeline.Lock
import PhotoBridge.Pipeline.Publish
import PhotoBridge.Pipeline.Proofs.Lock
import PhotoBridge.Pipeline.Proofs.Reconcile
import PhotoBridge.Pipeline.Prepare
import PhotoBridge.Pipeline.Simulate
import PhotoBridge.Pipeline.Proofs.Prepare
import PhotoBridge.Pipeline.Recovery
import PhotoBridge.Pipeline.Proofs.Names
import PhotoBridge.Pipeline.Proofs.Runtime
import PhotoBridge.Plan.Proofs.Base64
import PhotoBridge.Plan.Proofs.Identity
import PhotoBridge.Proofs.Paths
import PhotoBridge.Plan.Proofs.Identifiers
import PhotoBridge.Db.Proofs.Rows
import PhotoBridge.Db.Proofs.Attempts
import PhotoBridge.Db.Proofs.Dependencies
import PhotoBridge.Pipeline.Proofs.Streaming
import PhotoBridge.Upload.Proofs.Lengths
import PhotoBridge.Upload.Proofs.Body
import PhotoBridge.Upload.Page
import PhotoBridge.Upload.Proofs.Page
import PhotoBridge.Takeout.ParseCommand
import PhotoBridge.Takeout.Proofs.Walk
import PhotoBridge.Takeout.Proofs.Consistent
import PhotoBridge.Takeout.Proofs.ParseCommand
import PhotoBridge.Pipeline.Proofs.Observe
import PhotoBridge.Pipeline.Proofs.Actions
import PhotoBridge.Pipeline.Proofs.Resume
import PhotoBridge.Pipeline.Proofs.Fates
import PhotoBridge.Lib.WorkerPool
import PhotoBridge.Pipeline.Migrate
import PhotoBridge.Lib.Keeping
import PhotoBridge.Pipeline.Site
import PhotoBridge.Pipeline.Proofs.Ledger
import PhotoBridge.Pipeline.Proofs.ResumeKeeps
import PhotoBridge.Pipeline.Proofs.Kept
import PhotoBridge.Pipeline.Proofs.MigrateKeeps
import PhotoBridge.Pipeline.Proofs.Handles
import PhotoBridge.Pipeline.Proofs.Sharing
import PhotoBridge.Pipeline.Proofs.Worker
import PhotoBridge.Pipeline.Proofs.Pool
import PhotoBridge.Pipeline.Proofs.Lifetime
