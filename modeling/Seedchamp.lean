import Seedchamp.Catalog.BatchLaws
import Seedchamp.Catalog.BatchTransaction
import Seedchamp.Catalog.Bitfield
import Seedchamp.Catalog.FileProgress
import Seedchamp.Catalog.Flags
import Seedchamp.Catalog.InsertTorrent
import Seedchamp.Catalog.PeerCache
import Seedchamp.Catalog.Pieces
import Seedchamp.Catalog.Possession
import Seedchamp.Catalog.RecheckRuns
import Seedchamp.Catalog.Statements
import Seedchamp.Catalog.Table
import Seedchamp.Control.HavesKept
import Seedchamp.Control.Mutation
import Seedchamp.Control.RecheckHaves
import Seedchamp.Control.RecheckIntent
import Seedchamp.Crypto.KeyStream
import Seedchamp.Crypto.Mse
import Seedchamp.Crypto.MseScan
import Seedchamp.Crypto.PayloadCipher
import Seedchamp.Disk.Agreement
import Seedchamp.Disk.Places
import Seedchamp.Disk.Ranges
import Seedchamp.Disk.ReadWrite
import Seedchamp.Disk.Relocate
import Seedchamp.Disk.RelocateSafety
import Seedchamp.Disk.Spans
import Seedchamp.Foundation.Custody
import Seedchamp.Foundation.Decimal
import Seedchamp.Foundation.Files
import Seedchamp.Foundation.FirstSeen
import Seedchamp.Foundation.FirstSuccess
import Seedchamp.Foundation.Framing
import Seedchamp.Foundation.GuardedTransactions
import Seedchamp.Foundation.HardLinks
import Seedchamp.Foundation.KeyedMap
import Seedchamp.Foundation.KeyedRows
import Seedchamp.Foundation.Leases
import Seedchamp.Foundation.Machine
import Seedchamp.Foundation.PathComponents
import Seedchamp.Foundation.PathText
import Seedchamp.Foundation.Placeholders
import Seedchamp.Foundation.Query
import Seedchamp.Foundation.Segments
import Seedchamp.Foundation.SortedMap
import Seedchamp.Foundation.StreamCipher
import Seedchamp.Foundation.Tally
import Seedchamp.Foundation.Tasks
import Seedchamp.Foundation.Text
import Seedchamp.Foundation.TokenBucket
import Seedchamp.Foundation.Transactions
import Seedchamp.Foundation.TransitionSystem
import Seedchamp.Foundation.Utf8
import Seedchamp.Hot.Announcement
import Seedchamp.Hot.Availability
import Seedchamp.Hot.Interleaving
import Seedchamp.Hot.Picker
import Seedchamp.Hot.Possession
import Seedchamp.Hot.Quiescence
import Seedchamp.Hot.Torrent
import Seedchamp.Hot.Wanted
import Seedchamp.Library.CacheCap
import Seedchamp.Library.DownloadPath
import Seedchamp.Library.DownloadTemplate
import Seedchamp.Library.Export
import Seedchamp.Library.Imports
import Seedchamp.Library.Ingest
import Seedchamp.Library.LeechCache
import Seedchamp.Library.LifeCycle
import Seedchamp.Library.LifeCycleTruth
import Seedchamp.Library.SessionRoundTrip
import Seedchamp.Net.Inbound
import Seedchamp.Net.RateLimit
import Seedchamp.Net.RecvLowat
import Seedchamp.Net.Socket
import Seedchamp.Peer.Answers
import Seedchamp.Peer.Claims
import Seedchamp.Peer.ControlDelay
import Seedchamp.Peer.Delivery
import Seedchamp.Peer.Download
import Seedchamp.Peer.Duplex
import Seedchamp.Peer.EncryptionPolicy
import Seedchamp.Peer.Establish
import Seedchamp.Peer.HandshakeSync
import Seedchamp.Peer.Interest
import Seedchamp.Peer.Opening
import Seedchamp.Peer.RateBudget
import Seedchamp.Peer.RateProgress
import Seedchamp.Peer.RequestProgress
import Seedchamp.Peer.Requests
import Seedchamp.Peer.SendQueue
import Seedchamp.Peer.StagingBudget
import Seedchamp.Peer.WireOrder
import Seedchamp.Runtime.ActivityLog
import Seedchamp.Runtime.DiskBooks
import Seedchamp.Runtime.DiskControlBlocks
import Seedchamp.Runtime.DiskCustody
import Seedchamp.Runtime.DiskJobs
import Seedchamp.Runtime.DiskOutcomes
import Seedchamp.Runtime.DiskPhases
import Seedchamp.Runtime.DiskProgress
import Seedchamp.Runtime.DiskRings
import Seedchamp.Runtime.DiskSafety
import Seedchamp.Runtime.DiskThreads
import Seedchamp.Runtime.DiskWorker
import Seedchamp.Runtime.DiskWrites
import Seedchamp.Runtime.HashPool
import Seedchamp.Runtime.HashWorker
import Seedchamp.Runtime.LeastPeers
import Seedchamp.Session.AnnounceOrder
import Seedchamp.Session.AnnouncePacing
import Seedchamp.Session.AnnounceSteps
import Seedchamp.Session.AnnounceViews
import Seedchamp.Session.Announces
import Seedchamp.Session.Bindings
import Seedchamp.Session.Counters
import Seedchamp.Session.FlushPersistence
import Seedchamp.Session.HaveBuffer
import Seedchamp.Session.Lifecycle
import Seedchamp.Session.Redial
import Seedchamp.Session.Refill
import Seedchamp.Session.Registry
import Seedchamp.Session.Relocate
import Seedchamp.Session.RelocateFiles
import Seedchamp.Session.RelocateOrder
import Seedchamp.Session.SlotBooks
import Seedchamp.Session.Slots
import Seedchamp.Session.StagedHandoff
import Seedchamp.Session.StartTorrent
import Seedchamp.Session.Stopping
import Seedchamp.Staging.Assembly
import Seedchamp.Staging.Buffers
import Seedchamp.Staging.Conservation
import Seedchamp.Staging.Exchange
import Seedchamp.Staging.Ingestion
import Seedchamp.Staging.PiecePool
import Seedchamp.Staging.Planning
import Seedchamp.Staging.Pool
import Seedchamp.Staging.Progress
import Seedchamp.Torrentfile.Bencode
import Seedchamp.Torrentfile.CheckedDecode
import Seedchamp.Torrentfile.ComponentSafety
import Seedchamp.Torrentfile.DecodeSafety
import Seedchamp.Torrentfile.Geometry
import Seedchamp.Torrentfile.Grammar
import Seedchamp.Torrentfile.Parse
import Seedchamp.Torrentfile.Placement
import Seedchamp.Torrentfile.RawValue
import Seedchamp.Torrentfile.RoundTrip
import Seedchamp.Tracker.Exchange
import Seedchamp.Tracker.Failover
import Seedchamp.Tracker.Http
import Seedchamp.Tracker.Limit
import Seedchamp.Tracker.Requests
import Seedchamp.Tracker.Udp
import Seedchamp.Tui.DeleteFilter
import Seedchamp.Tui.FileRows
import Seedchamp.Tui.FileTree
import Seedchamp.Tui.ListSelection
import Seedchamp.Tui.Tombstones
import Seedchamp.Tui.VisibleRows
import Seedchamp.Upload.InFlight
import Seedchamp.Upload.Service
import Seedchamp.Wire.AllowedFast
import Seedchamp.Wire.Messages
import Seedchamp.Wire.Parse
