import LMCacheHcu.Foundation.RangeMask
import LMCacheHcu.Foundation.RowMajor
import LMCacheHcu.Foundation.ByteCopy
import LMCacheHcu.Foundation.StridedView
import LMCacheHcu.Foundation.Checked
import LMCacheHcu.Foundation.Exceptions
import LMCacheHcu.Foundation.PythonValues
import LMCacheHcu.Foundation.LittleEndian
import LMCacheHcu.Foundation.Text
import LMCacheHcu.Foundation.PercentCoding
import LMCacheHcu.Foundation.RankedIndex
import LMCacheHcu.Engine.ProcessTokens
import LMCacheHcu.Engine.ChunkOutcomes
import LMCacheHcu.Engine.RetrieveGuarantees
import LMCacheHcu.Engine.StoreEvents
import LMCacheHcu.Connector.RequestMeta
import LMCacheHcu.Connector.StartLoad
import LMCacheHcu.Connector.LoadGuarantees
import LMCacheHcu.Storage.Tensor
import LMCacheHcu.Storage.BlockFirstDisk
import LMCacheHcu.Storage.BlockFirstLayout
import LMCacheHcu.Storage.HeaderBytes
import LMCacheHcu.Storage.DirectPlan
import LMCacheHcu.Storage.XdsTransfer
import LMCacheHcu.Storage.TransferEffects
import LMCacheHcu.Storage.PerLayerRetrieve
import LMCacheHcu.Storage.PerLayerGuarantees
import LMCacheHcu.Storage.CrossLayerGuarantees
import LMCacheHcu.Storage.BlockFirstFile
import LMCacheHcu.Storage.RoundTrip
import LMCacheHcu.Storage.AsymmetricKernel
import LMCacheHcu.Storage.AsymmetricPlan
import LMCacheHcu.Storage.AsymmetricGuarantees
import LMCacheHcu.Foundation.Ledger
import LMCacheHcu.Foundation.Runs
import LMCacheHcu.Xds.State
import LMCacheHcu.Xds.Machine
import LMCacheHcu.Xds.Transitions
import LMCacheHcu.Xds.Accounting
import LMCacheHcu.Foundation.Custody
import LMCacheHcu.Xds.Files
import LMCacheHcu.Xds.Pins
import LMCacheHcu.Xds.Policy
import LMCacheHcu.Xds.DirectPutModes
import LMCacheHcu.Foundation.Generator
import LMCacheHcu.Layerwise.Connectors
import LMCacheHcu.Layerwise.StoreLayer
import LMCacheHcu.Layerwise.RetrieveLayer
import LMCacheHcu.Layerwise.RetrieveGuarantees
import LMCacheHcu.Routing.Operations
import LMCacheHcu.Routing.Machine
import LMCacheHcu.Routing.Guarantees
import LMCacheHcu.Prefetch.LookupTasks
import LMCacheHcu.Prefetch.Responses
import LMCacheHcu.Prefetch.AsyncRetrieve
import LMCacheHcu.Prefetch.Releases
import LMCacheHcu.Lookup.BlockMapping
import LMCacheHcu.Lookup.PinnedLookups
import LMCacheHcu.Lookup.XdsLookups
import LMCacheHcu.Lookup.PinGuarantees
import LMCacheHcu.Foundation.Collective
import LMCacheHcu.Broadcast.FirstRank
import LMCacheHcu.Broadcast.Agreement
import LMCacheHcu.Foundation.Interleaving
import LMCacheHcu.Storage.ParallelRetrieve
import LMCacheHcu.Foundation.Slices
import LMCacheHcu.Lookup.TierWalks
import LMCacheHcu.Connector.Scheduler
import LMCacheHcu.Connector.Assertions
import LMCacheHcu.Connector.TokenPrefix
import LMCacheHcu.Connector.SaveCoverage
import LMCacheHcu.Kernels.PagedCache
import LMCacheHcu.Kernels.MultiLayer
import LMCacheHcu.Kernels.Addressing
import LMCacheHcu.Kernels.AddressingGuarantees
import LMCacheHcu.Kernels.ByteMoves
import LMCacheHcu.Kernels.TransferRows
import LMCacheHcu.Kernels.SameBytes
import LMCacheHcu.Kernels.SkippedPrefix
import LMCacheHcu.Foundation.Grouping
import LMCacheHcu.Kernels.LayerGroups
import LMCacheHcu.Kernels.GroupTransfers
import LMCacheHcu.Kernels.GroupGuarantees
import LMCacheHcu.HyFile.Driver
import LMCacheHcu.HyFile.Ownership
import LMCacheHcu.HyFile.BackendSteps
import LMCacheHcu.HyFile.DriverHeld
import LMCacheHcu.HyFile.GlobalBuffers
import LMCacheHcu.LocalDisk.SaveTasks
import LMCacheHcu.LocalDisk.Accounting
import LMCacheHcu.Restart.FileNames
import LMCacheHcu.Restart.Sidecars
import LMCacheHcu.Storage.HeaderGuarantees
import LMCacheHcu.Restart.Scan
import LMCacheHcu.Restart.SidecarContainment
import LMCacheHcu.Restart.HeaderContainment
import LMCacheHcu.Restart.PathSafety
import LMCacheHcu.Restart.WrittenChunks
import LMCacheHcu.Restart.Recovery
import LMCacheHcu.Gds.Sidecars
import LMCacheHcu.Gds.Scan
import LMCacheHcu.Gds.SidecarContainment
import LMCacheHcu.Gds.ScanRuns
import LMCacheHcu.Gds.PathCodec
import LMCacheHcu.Gds.PutTasks
import LMCacheHcu.Gds.PutCleanup
import LMCacheHcu.Foundation.Tilings
import LMCacheHcu.Storage.DescriptorChecks
import LMCacheHcu.Foundation.ByteFiles
import LMCacheHcu.Foundation.ExactFloats
import LMCacheHcu.Foundation.WhileLoop
import LMCacheHcu.Gds.LegacyLoads
import LMCacheHcu.LocalDisk.BatchedLoad
import LMCacheHcu.Put.Alignment
import LMCacheHcu.Restart.PosixRoundTrip
import LMCacheHcu.Restart.RuntimeHeader
import LMCacheHcu.Storage.DescriptorSoundness
import LMCacheHcu.Storage.PerLayerValidity
import LMCacheHcu.Xds.Eviction
import LMCacheHcu.Foundation.Monitor
import LMCacheHcu.HyFile.DriverGuards
import LMCacheHcu.Prefetch.WeightedSemaphore
import LMCacheHcu.Kernels.MemcpyAsync
import LMCacheHcu.Connector.BlockTables
import LMCacheHcu.Storage.LayoutBijection
import LMCacheHcu.Put.ReleasedOnce
import LMCacheHcu.Foundation.PublishedFiles
import LMCacheHcu.Put.CpuWriters
import LMCacheHcu.Foundation.JsonStrings
import LMCacheHcu.Foundation.JsonText
import LMCacheHcu.Gds.JsonSidecars
import LMCacheHcu.Foundation.Completions
import LMCacheHcu.Xds.IoProfile
import LMCacheHcu.Xds.ProfiledDirectPut
import LMCacheHcu.Xds.ProfiledDirectGet
import LMCacheHcu.Xds.ProfiledStagedPut
import LMCacheHcu.Xds.ProfileGuarantees
import LMCacheHcu.Foundation.KeyedAccounts
import LMCacheHcu.Restart.StartupPuts
import LMCacheHcu.Restart.ScanOrder
import LMCacheHcu.Foundation.OrderedDict
import LMCacheHcu.Backends.Registry
import LMCacheHcu.Backends.Ownership
import LMCacheHcu.Backends.Lifecycle
import LMCacheHcu.Foundation.Streams
import LMCacheHcu.Foundation.SlotRows
import LMCacheHcu.Layerwise.BufferPipeline
import LMCacheHcu.Layerwise.BufferLoads
import LMCacheHcu.Layerwise.BufferContents
import LMCacheHcu.Layerwise.BufferGuarantees
import LMCacheHcu.Layerwise.BufferStores
import LMCacheHcu.Layerwise.BufferRoundTrip
import LMCacheHcu.Coherence.CacheWorld
import LMCacheHcu.Coherence.StoredRows
import LMCacheHcu.Coherence.RetrievedRows
import LMCacheHcu.Coherence.PrefetchedRows
import LMCacheHcu.Xds.LoadedContents
