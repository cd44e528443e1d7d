import GlobalTxn.Status.Global
import GlobalTxn.Status.Branch
import GlobalTxn.Session.BranchType
import GlobalTxn.Session.Branch
import GlobalTxn.Session.Global
import GlobalTxn.Steps
import GlobalTxn.Time
import GlobalTxn.Ident.Generator
import GlobalTxn.Ident.Xid
import GlobalTxn.Coordinator.ScanKind
import GlobalTxn.Protocol.Value
import GlobalTxn.Protocol.Status
import GlobalTxn.Protocol.Ident
import GlobalTxn.Protocol.Answer
import GlobalTxn.Text.Printable
import GlobalTxn.Text.GraphemeExtend
import GlobalTxn.Text.Quoted
import GlobalTxn.Text.Split
import GlobalTxn.Text.Utf8
import GlobalTxn.Text.Hex
import GlobalTxn.Lock.Row
import GlobalTxn.Lock.Table
import GlobalTxn.Lock.Manager
import GlobalTxn.Record.Holder
import GlobalTxn.Etcd.KeySpace
import GlobalTxn.Etcd.Client
import GlobalTxn.Etcd.Sessions
import GlobalTxn.Etcd.Locks
import GlobalTxn.Etcd.LeaseLocks
import GlobalTxn.Store.Sessions
import GlobalTxn.Protocol.Render
import GlobalTxn.Protocol.Inputs
import GlobalTxn.Lease
import GlobalTxn.Protocol.Stores
import GlobalTxn.Coordinator.Config
import GlobalTxn.Coordinator.Error
import GlobalTxn.Coordinator.Participants
import GlobalTxn.Coordinator.Storage
import GlobalTxn.Coordinator.Env
import GlobalTxn.Coordinator.Drive
import GlobalTxn.Coordinator.Operations
import GlobalTxn.Coordinator.Admin
import GlobalTxn.Coordinator.Scan
import GlobalTxn.Coordinator.Pool
import GlobalTxn.Coordinator.ScanLock
import GlobalTxn.Coordinator.Scheduler
import GlobalTxn.Coordinator.Cluster
import GlobalTxn.Coordinator.Latch
import GlobalTxn.Record.Wire
import GlobalTxn.Record.Session
import GlobalTxn.Uri.Ipv6
import GlobalTxn.Uri.Syntax
import GlobalTxn.Uri.Etcd
import GlobalTxn.StopSignal
import GlobalTxn.Protocol.StopSignal
import GlobalTxn.Protocol.Etcd
import GlobalTxn.Protocol.Compact
import GlobalTxn.Protocol.Document
import GlobalTxn.Proofs.Xid
import GlobalTxn.Proofs.IdLayout
import GlobalTxn.Proofs.LockKeyGrammar
import GlobalTxn.Proofs.Run
import GlobalTxn.Proofs.Keeps
import GlobalTxn.Proofs.Calls
import GlobalTxn.Proofs.KnownStatuses
import GlobalTxn.Proofs.LegalTransitions
import GlobalTxn.Proofs.Wp
import GlobalTxn.Proofs.HeldRows
import GlobalTxn.Proofs.HeldRowsCalls
import GlobalTxn.Proofs.HeldRowsDrive
import GlobalTxn.Proofs.HeldRowsOps
import GlobalTxn.Proofs.NoLeakedRows
import GlobalTxn.Proofs.WireRoundTrip
import GlobalTxn.Proofs.RecordRoundTrip
import GlobalTxn.Proofs.EtcdServer
import GlobalTxn.Proofs.EtcdLocks
import GlobalTxn.Proofs.PhaseTwoAgreement
import GlobalTxn.Proofs.RecordDecode
import GlobalTxn.Proofs.RunAlone
import GlobalTxn.Proofs.Register
import GlobalTxn.Proofs.DriveOrder
import GlobalTxn.Proofs.EtcdRuns
import GlobalTxn.Proofs.EtcdRevisions
import GlobalTxn.Proofs.EtcdSerialChanges
import GlobalTxn.Proofs.EtcdRowSafety
import GlobalTxn.Proofs.EtcdRowHolding
import GlobalTxn.Proofs.EtcdOptimistic
import GlobalTxn.Proofs.Recovery
import GlobalTxn.Proofs.RepeatedDecision
import GlobalTxn.Proofs.HandlersApart
import GlobalTxn.Proofs.OwnSession
import GlobalTxn.Proofs.LockCoverage
import GlobalTxn.Proofs.LockCoverageDrive
import GlobalTxn.Proofs.LockCoverageOps
import GlobalTxn.Proofs.LockCoverageRuns
import GlobalTxn.Proofs.DriveWalk
import GlobalTxn.Proofs.ScanHandlers
import GlobalTxn.Proofs.ScanPass
import GlobalTxn.Proofs.LockQuery
import GlobalTxn.Proofs.ResumableDelete
import GlobalTxn.Proofs.LeaseExclusion
import GlobalTxn.Proofs.LatchExclusion
import GlobalTxn.Proofs.EtcdUriGrammar
import GlobalTxn.Proofs.RowKeys
import GlobalTxn.Proofs.ClockReadings
import GlobalTxn.Proofs.Interleaving
import GlobalTxn.Proofs.DriveBeside
import GlobalTxn.Proofs.RegisterStages
import GlobalTxn.Proofs.RegistrationRace
