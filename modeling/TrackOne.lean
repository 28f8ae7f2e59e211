import TrackOne.Lib.Words
import TrackOne.Lib.BinaryFloat
import TrackOne.Lib.DetCbor
import TrackOne.Lib.TreeMap
import TrackOne.Lib.InPlace
import TrackOne.Lib.Run
import TrackOne.Lib.Simulation
import TrackOne.Lib.Fencing
import TrackOne.Lib.SegLog
import TrackOne.Lib.Slice
import TrackOne.Lib.Sha256
import TrackOne.Lib.SplitTree
import TrackOne.Lib.AlignedChunks
import TrackOne.Lib.Decimal
import TrackOne.Lib.DecimalFraction
import TrackOne.Lib.Codec
import TrackOne.Lib.XChaCha
import TrackOne.Vtl.Basic
import TrackOne.Vtl.Merkle
import TrackOne.Vtl.Composition
import TrackOne.Vtl.Cbor
import TrackOne.Vtl.Segment
import TrackOne.Vtl.SegmentDecode
import TrackOne.Vtl.Float
import TrackOne.Vtl.Record
import TrackOne.Vtl.ProfileId
import TrackOne.Vtl.CanonicalCbor
import TrackOne.Gateway.Producer
import TrackOne.Gateway.Store
import TrackOne.Gateway.Chain
import TrackOne.Gateway.Operations
import TrackOne.Gateway.Deltas
import TrackOne.Gateway.Ledger
import TrackOne.Gateway.Runs
import TrackOne.Gateway.Envelope
import TrackOne.Gateway.EnvelopeGrammar
import TrackOne.Gateway.GzipHeader
import TrackOne.Gateway.Gzip
import TrackOne.Gateway.Methods
import TrackOne.Gateway.Sealing
import TrackOne.Gateway.Limits
import TrackOne.Gateway.Kept
import TrackOne.Gateway.Expiry
import TrackOne.Gateway.ExpiryForm
import TrackOne.Gateway.Maintenance
import TrackOne.Gateway.Closing
import TrackOne.Gateway.Batching
import TrackOne.Gateway.Concurrent
import TrackOne.Gateway.Postgres
import TrackOne.Gateway.PostgresAgrees
import TrackOne.Gateway.PostgresRuns
import TrackOne.Gateway.TimestampQueue
import TrackOne.Gateway.TimestampRuns
import TrackOne.Gateway.Accounting
import TrackOne.Gateway.Workers
import TrackOne.Gateway.Retelling
import TrackOne.Gateway.Http
import TrackOne.Gateway.Admissions
import TrackOne.Gateway.Retries
import TrackOne.Gateway.Pools
import TrackOne.Gateway.Stamping
import TrackOne.Gateway.Stopping
import TrackOne.Evidence.Bundle
import TrackOne.Gateway.Snapshot
import TrackOne.Gateway.Export
import TrackOne.Evidence.Disclosure
import TrackOne.Evidence.Recompute
import TrackOne.Evidence.Soundness
import TrackOne.Gateway.Slices
import TrackOne.Gateway.Material
import TrackOne.Gateway.Disclosures
import TrackOne.Gateway.DisclosureGrants
import TrackOne.Gateway.Anchor
import TrackOne.Gateway.Service
import TrackOne.Gateway.Answers
import TrackOne.Evidence.Verify
import TrackOne.Evidence.Verdict
import TrackOne.Evidence.Scopes
import TrackOne.Evidence.Remote
import TrackOne.Evidence.Retrieval
import TrackOne.Evidence.Exported
import TrackOne.Evidence.Exports
import TrackOne.Evidence.Anchored
import TrackOne.Evidence.Served
import TrackOne.Checker.Artifacts
import TrackOne.Checker.Exchange
import TrackOne.Checker.Der
import TrackOne.Checker.Paths
import TrackOne.Anchoring.Sidecar
import TrackOne.Evidence.Archive
import TrackOne.Evidence.Compaction
import TrackOne.Ingest.Fact
import TrackOne.Ingest.Replay
import TrackOne.Ingest.Frame
import TrackOne.Ingest.Pod
import TrackOne.Ingest.Admission
import TrackOne.Rfc3161.GenerationTime
import TrackOne.Rfc3161.Archive
import TrackOne.Ots.Tree
import TrackOne.Ots.Exact
import TrackOne.Ingest.FactCbor
import TrackOne.SensorThings.Adapter
import TrackOne.Vtl.Exactness
import TrackOne.Evidence.Malformed
