import Pergamon.Fallible
import Pergamon.Newest
import Pergamon.Hlc
import Pergamon.Review
import Pergamon.Merge
import Pergamon.Apply
import Pergamon.Convergence
import Pergamon.Emit
import Pergamon.Writes
import Pergamon.Succession
import Pergamon.Moves
import Pergamon.Effects
import Pergamon.Membership
import Pergamon.Monotone
import Pergamon.Schedule
import Pergamon.Stamps
import Pergamon.Agreement
import Pergamon.EventLog
import Pergamon.Relay
import Pergamon.AuthStore
import Pergamon.Sessions
import Pergamon.Throttle
import Pergamon.Binding
import Pergamon.Server
import Pergamon.Authority
import Pergamon.Admission
import Pergamon.Rotation
import Pergamon.Guessing
import Pergamon.ParentFirst
import Pergamon.Sections
import Pergamon.Baseline
import Pergamon.Rebuild
import Pergamon.Replay
import Pergamon.Backfill
import Pergamon.Push
import Pergamon.Pull
import Pergamon.Legible
import Pergamon.Survival
import Pergamon.Wire
import Pergamon.Primitives
import Pergamon.Devices
import Pergamon.Enrollment
import Pergamon.Onboarding
import Pergamon.HttpRelay
import Pergamon.CurrentEpoch
import Pergamon.Roster
import Pergamon.Handover
import Pergamon.Authenticity
import Pergamon.RemoteBinding
import Pergamon.DeviceRuns
import Pergamon.Runs
import Pergamon.EpochRuns
import Pergamon.KeyFile
import Pergamon.KeyFileRuns
import Pergamon.Envelope
import Pergamon.CryptoContext
import Pergamon.Blobs
import Pergamon.Refreshing
import Pergamon.Reviewing
import Pergamon.SmartFilter
import Pergamon.Library
import Pergamon.Forest
import Pergamon.Hierarchy
import Pergamon.Rules
import Pergamon.Ingest
import Pergamon.Duplicates
import Pergamon.Joins
import Pergamon.Selection
import Pergamon.SmartCollections
import Pergamon.Mirrors
import Pergamon.SearchIndex
import Pergamon.IndexRuns
import Pergamon.Dumps
import Pergamon.Backup
import Pergamon.BackupRuns
import Pergamon.Formats
import Pergamon.Statements
import Pergamon.Untrusted
import Pergamon.LogUnion
import Pergamon.Fairness
import Pergamon.Daemon
import Pergamon.Placeholders
import Pergamon.ItemQuery
import Pergamon.Listing
import Pergamon.Pages
import Pergamon.Patches
import Pergamon.Highlights
import Pergamon.OrderedTree
import Pergamon.Opml
import Pergamon.OpmlShape
import Pergamon.OpmlRoundTrip
import Pergamon.Decimal
import Pergamon.Calendar
import Pergamon.Consecutive
import Pergamon.Streaks
import Pergamon.Timestamps
import Pergamon.Comparisons
import Pergamon.ImportKeys
import Pergamon.Subscriptions
import Pergamon.OpmlImport
import Pergamon.FilterText
import Pergamon.Slugs
import Pergamon.Templates
import Pergamon.Exports
import Pergamon.ExportNames
import Pergamon.Clippings
import Pergamon.ClippingSlices
import Pergamon.JulianDays
import Pergamon.Frontmatter
import Pergamon.Canonical
import Pergamon.Importers
import Pergamon.ImportSteps
import Pergamon.Requests
import Pergamon.ImportRuns
import Pergamon.OutlineVisits
import Pergamon.OutlineCharts
import Pergamon.Reimports
import Pergamon.DryRuns
import Pergamon.QueryPairs
import Pergamon.CanonicalForm
