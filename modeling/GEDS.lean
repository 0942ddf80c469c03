import GEDS.Library.PrefixOrder
import GEDS.Library.Separator
import GEDS.Library.AssocMap
import GEDS.Library.OrderedMap
import GEDS.Library.Heap
import GEDS.Library.FileSystem
import GEDS.Library.Linearization
import GEDS.Library.Trie
import GEDS.Object
import GEDS.Path
import GEDS.ConcurrentMap
import GEDS.MDSKVS
import GEDS.MDSKVSReference
import GEDS.MDSKVSListing
import GEDS.MDSKVSConcurrent
import GEDS.MDSKVSOrder
import GEDS.MDSKVSLinearizable
import GEDS.PrefixTree
import GEDS.PrefixTreeInvariant
import GEDS.PrefixTreeDelete
import GEDS.PubSub
import GEDS.PubSubDelivery
import GEDS.Names
import GEDS.LocalPath
import GEDS.LocalFile
import GEDS.Node
import GEDS.NodeRegistry
import GEDS.NodeCreate
import GEDS.OpenCount
import GEDS.NodeBacking
import GEDS.Library.Regex
import GEDS.TcpDataTransport
import GEDS.NodeRelocate
import GEDS.Relocation
import GEDS.FileTransfer
import GEDS.FileTransferMatching
import GEDS.MetadataCache
import GEDS.PubSubConvergence
import GEDS.CacheListing
import GEDS.CachedFileHandle
import GEDS.CachedRead
import GEDS.NodeBlocks
import GEDS.BlockIntegrity
import GEDS.BlockFreshness
import GEDS.S3Download
import GEDS.FileTransferPool
import GEDS.CacheCoherence
import GEDS.Library.WriteBehind
import GEDS.PersistentStore
import GEDS.PersistentRuns
import GEDS.StorageModes
import GEDS.Library.Moves
import GEDS.Rename
import GEDS.NodeContents
import GEDS.RenameCopy
import GEDS.OpenFrom
import GEDS.RenameObject
import GEDS.RenameEffects
import GEDS.RenamePrefix
import GEDS.RenameLossless
import GEDS.S3Location
import GEDS.Library.SparseArray
import GEDS.LocalFileTransfers
import GEDS.LocalFileArray
import GEDS.FileHandleDownload
import GEDS.TcpConnection
import GEDS.S3Access
import GEDS.PersistentListing
import GEDS.CopyFailure
import GEDS.DirectoryListing
import GEDS.ListedPrefixes
import GEDS.ModesAgree
import GEDS.ServersAgree
import GEDS.ServersHistories
import GEDS.MDSKVSDelete
import GEDS.ObjectQueries
import GEDS.MDSKVSForced
import GEDS.MDSKVSSnapshot
import GEDS.PubSubReconnect
import GEDS.PubSubCounter
import GEDS.FileStatus
import GEDS.PubSubSections
import GEDS.FileListing
import GEDS.Library.ElementVector
import GEDS.NodeAddress
import GEDS.VectorRead
import GEDS.S3Read
import GEDS.BatchRelocation
import GEDS.NodeStart
import GEDS.CacheFailures
import GEDS.Library.SharedParts
import GEDS.NodeMkdirs
import GEDS.StorageMonitor
import GEDS.StorageAccounting
import GEDS.PathSearch
import GEDS.S3OptionalRange
import GEDS.TypedAccess
import GEDS.Library.PageRounding
import GEDS.MMAPFile
import GEDS.FileTypes
import GEDS.Library.TakeUntil
import GEDS.StorageSpilling
import GEDS.StorageRounds
import GEDS.HandleDeadlock
import GEDS.ObjectStoreAgreement
import GEDS.S3Objects
import GEDS.ForwardingDepth
import GEDS.ForwardingEnds
import GEDS.ForwardingLoops
