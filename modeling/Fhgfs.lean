import Fhgfs.Chunks.ChunkDirSafety
import Fhgfs.Client.CacheFlushes
import Fhgfs.Client.AppendSegments
import Fhgfs.Client.CacheTransparency
import Fhgfs.Client.CommunicateAccounted
import Fhgfs.Client.PageVecCompletion
import Fhgfs.Common.MessageDecoding
import Fhgfs.Common.NodeListRoundTrip
import Fhgfs.Fsck.DiskList
import Fhgfs.Fsck.CursorStability
import Fhgfs.Fsck.DirAttribs
import Fhgfs.Fsck.TableLifetimes
import Fhgfs.Locking.EntryTickets
import Fhgfs.Locking.EntryWakeup
import Fhgfs.Locking.RangeExclusion
import Fhgfs.Locking.RangeGrants
import Fhgfs.Locking.RangeUnlock
import Fhgfs.Metadata.ChunkPathIdentity
import Fhgfs.Metadata.DirInodeOnDisk
import Fhgfs.Metadata.EntryIDs
import Fhgfs.Nodes.AutomaticFailover
import Fhgfs.Nodes.BuddyGroupMembership
import Fhgfs.Nodes.NodeConnPoolAccounts
import Fhgfs.Nodes.NodeStoreRuns
import Fhgfs.Nodes.NumericIDMapper
import Fhgfs.Nodes.TargetMapper
import Fhgfs.Quota.QuotaChanges
import Fhgfs.Resync.ChunkLocks
import Fhgfs.Resync.ChunkResync
import Fhgfs.Resync.MirroredModifications
import Fhgfs.Session.AsyncCleanup
import Fhgfs.Session.MetaSessionRoundTrip
import Fhgfs.Session.SessionLocalFileLifetimes
import Fhgfs.Session.SessionRestore
import Fhgfs.Session.SyncSessions
import Fhgfs.Storage.RenameInSameDir
import Fhgfs.Targets.ConsistencyStates
import Fhgfs.Workers.WorkAccounts
import Fhgfs.Chunks.ChunkPaths
import Fhgfs.Client.DirListing
import Fhgfs.Client.InodeRefStore
import Fhgfs.Client.StripePatternDecoding
import Fhgfs.Locking.LockGrants
import Fhgfs.Storage.DirCacheAccounting
import Fhgfs.Workers.ModificationEventFlusher
import Fhgfs.Nodes.ConsistencyStateChange
import Fhgfs.Common.SparseFlag
import Fhgfs.Common.UnitTk
import Fhgfs.Metadata.FileInfoVec
import Fhgfs.Storage.SubEntryCounters
import Fhgfs.Nodes.RoundRobin
import Fhgfs.Nodes.NodeIteration
import Fhgfs.Nodes.CapacityPoolUpdate
import Fhgfs.Workers.UserScheduling
