import AiEngine.Lib.Outcome
import AiEngine.Lib.Bytes
import AiEngine.Lib.Format
import AiEngine.Lib.Machine
import AiEngine.Lib.Table
import AiEngine.Lib.FreshId
import AiEngine.Lib.Registry
import AiEngine.Lib.Ring
import AiEngine.Lib.Window
import AiEngine.Lib.Heap
import AiEngine.Ref.Platform
import AiEngine.Ref.Encdec
import AiEngine.Ref.Shm
import AiEngine.Ref.AieIpc
import AiEngine.Ref.Pools
import AiEngine.Ref.Plugin
import AiEngine.Ref.DataChannel
import AiEngine.Ref.EngineManager
import AiEngine.Ref.FutureFactory
import AiEngine.Ref.SaAsyncHandler
import AiEngine.Ref.SaServerAdapter
import AiEngine.Ref.ServerExecutor
import AiEngine.Proofs.UnloadSteps
import AiEngine.Ref.AsyncServer
import AiEngine.Ref.SyncServer
import AiEngine.Ref.ClientFactory
import AiEngine.Ref.ClientServer
import AiEngine.Ref.ConnectMgr
import AiEngine.Ref.AdapterWrapper
import AiEngine.Ref.RwLock
import AiEngine.Ref.SharedQueue
import AiEngine.Ref.ThreadPool
import AiEngine.Ref.SharedThread
import AiEngine.Ref.SharedManager
import AiEngine.Ref.SlideWindow
import AiEngine.Ref.PcmIterator
import AiEngine.Ref.ImageTransfer
import AiEngine.Proofs.EncdecGrowth
import AiEngine.Proofs.EncdecFormat
import AiEngine.Proofs.EncdecRoundTrip
import AiEngine.Proofs.ShmSearch
import AiEngine.Proofs.IpcRoundTrip
import AiEngine.Proofs.PoolLedger
import AiEngine.Proofs.EngineResources
import AiEngine.Proofs.EngineCreation
import AiEngine.Proofs.EngineAccounting
import AiEngine.Proofs.FutureIds
import AiEngine.Proofs.InferMode
import AiEngine.Proofs.AsyncSteps
import AiEngine.Proofs.CallbackLifetime
import AiEngine.Proofs.AsyncRequests
import AiEngine.Proofs.FutureLifetime
import AiEngine.Proofs.ResponseOwnership
import AiEngine.Proofs.ResponseRouting
import AiEngine.Proofs.FutureAccounting
import AiEngine.Proofs.SyncAnswers
import AiEngine.Proofs.ClientSteps
import AiEngine.Proofs.ClientCallbacks
import AiEngine.Proofs.ClientSessions
import AiEngine.Proofs.CallbackRegistration
import AiEngine.Proofs.ClientIdentity
import AiEngine.Proofs.ReferenceLedger
import AiEngine.Proofs.ClientTeardown
import AiEngine.Proofs.AdapterLifetime
import AiEngine.Proofs.IpcFraming
import AiEngine.Proofs.UnParcelSafety
import AiEngine.Proofs.StartFailures
import AiEngine.Proofs.LoadFailures
import AiEngine.Proofs.LockSafety
import AiEngine.Proofs.QueueRefinement
import AiEngine.Proofs.PoolPartition
import AiEngine.Proofs.StopSafety
import AiEngine.Proofs.ConcurrentEngines
import AiEngine.Proofs.SlidingWindow
import AiEngine.Proofs.ImageSlices
import AiEngine.Proofs.PcmInit
import AiEngine.Proofs.PcmWindows
import AiEngine.Ref.RequestServer
import AiEngine.Proofs.RequestRelease
import AiEngine.Proofs.InitFailures
import AiEngine.Proofs.KeySearch
import AiEngine.Ref.RingQueue
import AiEngine.Proofs.RingRefinement
import AiEngine.Ref.QueuePool
import AiEngine.Proofs.QueueAccounting
import AiEngine.Ref.ResponseList
import AiEngine.Proofs.ResponseDelivery
import AiEngine.Proofs.ClientIds
import AiEngine.Ref.TableSections
import AiEngine.Proofs.Capacities
import AiEngine.Ref.FeatureProcessors
import AiEngine.Proofs.ProcessorSafety
import AiEngine.Ref.KwsSdk
import AiEngine.Proofs.KwsExecution
import AiEngine.Ref.PluginHandles
import AiEngine.Proofs.PluginAccounting
import AiEngine.Ref.IcOutput
import AiEngine.Proofs.TopKSelection
import AiEngine.Proofs.ItemsOnWire
import AiEngine.Proofs.EncdecFailures
import AiEngine.Ref.ImagePlugin
import AiEngine.Proofs.ImageBounds
import AiEngine.Ref.AudioWrapper
import AiEngine.Proofs.CodecAccounting
import AiEngine.Ref.PcmPositions
import AiEngine.Proofs.PcmBounds
import AiEngine.Proofs.PcmSamples
import AiEngine.Lib.Fill
import AiEngine.Lib.Session
import AiEngine.Ref.RemoteCall
import AiEngine.Proofs.RemoteCalls
import AiEngine.Proofs.PayloadSegments
import AiEngine.Proofs.CallArguments
import AiEngine.Proofs.CallFailures
import AiEngine.Ref.AsyncDelivery
import AiEngine.Proofs.AsyncDelivery
import AiEngine.Ref.KwsInference
import AiEngine.Proofs.KwsFeatures
import AiEngine.Proofs.KwsInference
import AiEngine.Proofs.EncdecWire
import AiEngine.Ref.KwsPipeline
import AiEngine.Proofs.KwsStreams
import AiEngine.Proofs.KwsPipeline
import AiEngine.Lib.Monitor
import AiEngine.Ref.SemaphoreEvent
import AiEngine.Proofs.NoLostWakeup
import AiEngine.Proofs.ClientIsolation
import AiEngine.Ref.IcInference
import AiEngine.Ref.IcPipeline
import AiEngine.Proofs.IcMessages
import AiEngine.Proofs.Classifiers
import AiEngine.Proofs.ImageCalls
import AiEngine.Proofs.IcPipeline
