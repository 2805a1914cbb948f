import CyfsNdn.Relational.Table
import CyfsNdn.Relational.SeqTable
import CyfsNdn.Transition.Run
import CyfsNdn.Transition.Replay
import CyfsNdn.Transition.Ancestor
import CyfsNdn.NdnLib.ObjId
import CyfsNdn.NdnLib.Chunk
import CyfsNdn.NdnLib.ChunkListSize
import CyfsNdn.NdnLib.Hasher
import CyfsNdn.NdnLib.SampleCrates
import CyfsNdn.NamedStore.StoreDb
import CyfsNdn.NamedStore.StoreDbFacts
import CyfsNdn.NamedStore.AnchorCount
import CyfsNdn.NamedStore.GcInvariant
import CyfsNdn.NamedStore.EdgeOutbox
import CyfsNdn.NamedStore.Cascade
import CyfsNdn.NamedStore.OutboxSender
import CyfsNdn.NamedStore.ExpiredEdges
import CyfsNdn.NamedStore.LocalFsBackend
import CyfsNdn.NamedStore.Store
import CyfsNdn.NamedStore.SameAsProtection
import CyfsNdn.NamedStore.ForcedGc
import CyfsNdn.NamedStore.ChunkPut
import CyfsNdn.NamedStore.NamedDataMgr
import CyfsNdn.NamedStore.Availability
import CyfsNdn.NamedStore.MaglevTable
import CyfsNdn.NamedStore.MaglevSelect
import CyfsNdn.Collections.Trie
import CyfsNdn.FsMeta.PathResolveCache
import CyfsNdn.FsMeta.CacheTree
import CyfsNdn.FsMeta.EdgeInvalidation
import CyfsNdn.Collections.Newest
import CyfsNdn.NamedStore.LayoutHistory
import CyfsNdn.FsMeta.FsMetaDb
import CyfsNdn.FsMeta.FsMetaService
import CyfsNdn.FsMeta.Elementary
import CyfsNdn.FsMeta.InodeState
import CyfsNdn.FsMeta.WriteLease
import CyfsNdn.Collections.BackReference
import CyfsNdn.FsMeta.DentryTree
import CyfsNdn.FsMeta.Requests
import CyfsNdn.Collections.Forest
import CyfsNdn.FsMeta.DirForest
import CyfsNdn.FsMeta.FsMetaClient
import CyfsNdn.FsMeta.MovePath
import CyfsNdn.FsMeta.Transactions
import CyfsNdn.FsMeta.ResolvePath
import CyfsNdn.FsMeta.ResolveAnswers
import CyfsNdn.NamedStore.GcSweep
import CyfsNdn.NamedStore.MultiStoreGc
import CyfsNdn.NamedStore.ZoneGateway
import CyfsNdn.NamedStore.UploadSessions
import CyfsNdn.NdnLib.Json
import CyfsNdn.NdnLib.CyfsHttp
import CyfsNdn.NdnLib.ObjectContent
import CyfsNdn.NdnToolkit.NdnClient
import CyfsNdn.NdnToolkit.Pull
import CyfsNdn.NdnToolkit.PullFacts
import CyfsNdn.NdnToolkit.IdUrls
import CyfsNdn.NdnToolkit.FetchById
import CyfsNdn.NdnLib.SampleWeb
import CyfsNdn.NdnToolkit.InnerPathProof
import CyfsNdn.NdnToolkit.DirServer
import CyfsNdn.NdnToolkit.DirServerPaths
import CyfsNdn.Collections.SortedMap
import CyfsNdn.NamedStore.ChunkPiece
import CyfsNdn.NamedStore.PinTtl
import CyfsNdn.NdnLib.DirObject
import CyfsNdn.NdnLib.DirIdentity
import CyfsNdn.NamedStore.ChildRefs
import CyfsNdn.NamedStore.FullyStored
import CyfsNdn.Collections.Pieces
import CyfsNdn.NamedStore.ListReader
import CyfsNdn.NamedStore.ChunkListReader
import CyfsNdn.NamedStore.DiffChunkList
import CyfsNdn.NamedStore.DiffChunkListWriter
import CyfsNdn.NamedStore.DiffDamage
import CyfsNdn.NamedStore.DiffContent
import CyfsNdn.NamedStore.DiffRead
import CyfsNdn.NamedStore.DiffClose
import CyfsNdn.NamedStore.DiffEdits
import CyfsNdn.NamedStore.DiffSessions
import CyfsNdn.NamedStore.DiffFailure
import CyfsNdn.NamedStore.DiffReopen
import CyfsNdn.NdnLib.ObjIdCodecs
import CyfsNdn.Collections.Tally
import CyfsNdn.NdnLib.DirCounters
import CyfsNdn.NdnLib.QuickHash
import CyfsNdn.NdnLib.HeaderCodec
import CyfsNdn.FsMeta.EntryPoints
import CyfsNdn.FsMeta.MoveEffect
import CyfsNdn.FsMeta.FinalizeDir
import CyfsNdn.FsMeta.FinalizeRuns
import CyfsNdn.FsMeta.LeaseFencing
import CyfsNdn.Collections.LexicalPath
import CyfsNdn.NamedStore.UploadFaults
import CyfsNdn.NamedStore.UploadUsage
import CyfsNdn.NamedStore.UploadAnswers
import CyfsNdn.NamedStore.UploadPaths
import CyfsNdn.FsBuffer.BufferCapacity
import CyfsNdn.Collections.Greatest
import CyfsNdn.PackageLib.MetaIndexDb
import CyfsNdn.PackageLib.VersionRange
import CyfsNdn.PackageLib.SampleSemver
import CyfsNdn.FsMeta.LosslessOpen
import CyfsNdn.Collections.LruOrder
import CyfsNdn.Collections.TrieView
import CyfsNdn.FsMeta.CacheAccesses
import CyfsNdn.FsMeta.CacheRepresentation
import CyfsNdn.Collections.PackedOrder
import CyfsNdn.PackageLib.VersionInt
import CyfsNdn.Collections.MixedOrder
import CyfsNdn.PackageLib.VersionOrder
import CyfsNdn.Collections.Separated
import CyfsNdn.PackageLib.PackageId
import CyfsNdn.PackageLib.PackageIdForms
import CyfsNdn.Collections.DepthFirst
import CyfsNdn.PackageLib.PkgMetaQuery
import CyfsNdn.PackageLib.Dependencies
import CyfsNdn.Transition.Dialogue
import CyfsNdn.Transition.Pool
import CyfsNdn.NamedStore.ResolveNextObj
import CyfsNdn.NamedStore.InnerPathWalk
import CyfsNdn.NamedStore.InnerPathCalls
import CyfsNdn.NamedStore.PathResolution
import CyfsNdn.Collections.LruList
import CyfsNdn.NamedStore.ResolveNextObjLru
import CyfsNdn.Collections.BTreeMap
import CyfsNdn.Collections.Paging
import CyfsNdn.FsMeta.ListCache
import CyfsNdn.FsMeta.ListDir
import CyfsNdn.FsMeta.NamedFileListing
