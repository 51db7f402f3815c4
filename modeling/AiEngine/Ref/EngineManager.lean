import AiEngine.Lib.Machine
import AiEngine.Ref.AieIpc
import AiEngine.Ref.DataChannel
import AiEngine.Ref.Plugin
import AiEngine.Ref.Pools

/-!
# The engine manager

`engine_manager.cpp` and the life of an `Engine` in `engine.cpp`. Transaction
ids lead to engines, an algorithm id and a version lead to the same engines,
and an engine is destroyed when neither map and no running call holds it any
longer: the maps hold shared pointers.

The calls are modelled one at a time. What the system, the allocator and the
plugin answer during a call is its environment.
-/

namespace AiEngine.Ref

open AiEngine.Lib

/-- `MAX_SYNC_MSG_NUM`. -/
def maxSyncMsgNum : Nat := 64

/-- `PLUGIN_NUM_FOR_UNLOAD`. -/
def pluginNumForUnload : Int32 := 1

/-- `PLUGIN_SYNC_INFER`. -/
def pluginSyncInfer : String := "SYNC"

structure EngineKey where
  aid : String
  version : Int64
  deriving DecidableEq, Repr

/-- `Engine`. Its worker serves its queue. -/
structure Engine where
  refCount : Int32
  plugin : Plugin
  thread : Nat
  queue : Nat
  msgHandler : Option MsgHandler
  deriving DecidableEq, Repr

/-- What one call finds outside the manager: the allocations and the thread
library, what it takes to load a plugin, and the plugin's own answers. -/
structure Env where
  plugins : PluginEnv
  newThreadPool : Bool
  newThread : Bool
  newQueuePool : Bool
  newQueue : Bool
  newEngine : Bool
  newMsgHandler : Bool
  createThread : Bool
  /-- What `pthread_create` leaves in the thread's handle. -/
  threadHandle : Nat
  prepare : Int64 → DataInfo → DataInfo → Int × DataInfo
  release : Bool → Int64 → DataInfo → Int
  setOption : Int32 → DataInfo → Int
  getOption : Int32 → DataInfo → DataInfo → Int × DataInfo

/-- Everything asked for is granted, and every plugin is synchronous and
content. -/
def Env.willing : Env where
  plugins := ⟨true, true, fun _ => true, fun _ => true, fun _ => true,
    fun _ => some pluginSyncInfer⟩
  newThreadPool := true
  newThread := true
  newQueuePool := true
  newQueue := true
  newEngine := true
  newMsgHandler := true
  createThread := true
  threadHandle := 1
  prepare := fun _ _ outputInfo => (Retcode.success, outputInfo)
  release := fun _ _ _ => Retcode.success
  setOption := fun _ _ => Retcode.success
  getOption := fun _ _ outputInfo => (Retcode.success, outputInfo)

/-- The manager's maps and the singletons it works with. Engines are the
objects that exist, under the number they got when they were made. -/
structure Server where
  pools : Pools Task
  pluginManager : Option PluginManager
  engine : Table Nat Engine
  engineNum : Nat
  engines : Table EngineKey Nat
  clientEngines : Table Int64 Nat

namespace Server

/-- Before the first call. -/
def initial : Server where
  pools := .initial
  pluginManager := none
  engine := ∅
  engineNum := 0
  engines := ∅
  clientEngines := ∅

/-- `IsSyncMode`. -/
def isSyncMode (plugin : Plugin) : Bool :=
  plugin.inferMode == some pluginSyncInfer

/-- The handler `Engine::Initialize` makes for a plugin. -/
def msgHandlerFor (plugin : Plugin) : MsgHandler :=
  if isSyncMode plugin then .sync else .async

/-- `Engine::Initialize`. A handler that was made before the thread failed to
start is deleted again. -/
def engineInitialize (s : Server) (env : Env) (e : Nat) (engine : Engine) :
    Int × Server :=
  if ¬ env.newMsgHandler then (Retcode.outOfMemory, s)
  else
    let handler := msgHandlerFor engine.plugin
    let (isStarted, thread) := (s.pools.thread engine.thread).startThread
      (.engineWorker engine.queue) env.createThread env.threadHandle
    let s := { s with pools := s.pools.setThread engine.thread thread }
    if isStarted then
      (Retcode.success, { s with
        engine := s.engine.insert e { engine with msgHandler := some handler } })
    else (Retcode.startThreadFailed, s)

/-- `Engine::Uninitialize`. -/
def engineUninitialize (pools : Pools Task) (env : Env) (engine : Engine) :
    Pools Task :=
  let pools := pools.stopThread engine.thread
  let (hasThreadPool, pools) := pools.threadPoolInstance env.newThreadPool
  if ¬ hasThreadPool then pools
  else
    let pools := pools.threadPush engine.thread
    let (hasQueuePool, pools) :=
      pools.queuePoolInstance maxQueueLength env.newQueuePool
    if ¬ hasQueuePool then pools else pools.queuePush engine.queue

/-- Whether a map still holds the engine. -/
abbrev isHeld (s : Server) (e : Nat) : Prop :=
  0 < Table.countWith (· = e) s.engines ∨
    0 < Table.countWith (· = e) s.clientEngines

/-- The last pointer of a call to an engine goes: `~Engine` unless a map
holds it. -/
def dropEngine (s : Server) (env : Env) (e : Nat) : Server :=
  match s.engine.lookup e with
  | none => s
  | some engine =>
      if s.isHeld e then s
      else { s with
        pools := engineUninitialize s.pools env engine
        engine := s.engine.erase e }

/-- `FindEngine(engineKey)`. -/
def findEngineByKey (s : Server) (engineKey : EngineKey) : Option Nat :=
  s.engines.lookup engineKey

/-- `FindEngine(transactionId)`. -/
def findEngine (s : Server) (transactionId : Int64) : Option Nat :=
  s.clientEngines.lookup transactionId

/-- `RecordClient`. The pointer that is overwritten goes. -/
def recordClient (s : Server) (env : Env) (transactionId : Int64) (e : Nat) :
    Server :=
  let recorded :=
    { s with clientEngines := s.clientEngines.insert transactionId e }
  match s.findEngine transactionId with
  | none => recorded
  | some old => recorded.dropEngine env old

def unRecordClient (s : Server) (transactionId : Int64) : Server :=
  { s with clientEngines := s.clientEngines.erase transactionId }

def delEngine (s : Server) (engineKey : EngineKey) : Server :=
  { s with engines := s.engines.erase engineKey }

def setRefCount (s : Server) (e : Nat) (engine : Engine) (n : Int32) : Server :=
  { s with engine := s.engine.insert e { engine with refCount := n } }

/-! ## Starting an engine

An engine is made of a plugin, a thread and a queue, in this order. Each of
the three can be missing, and what was got before goes back along the paths of
the source, not all of which give everything back. -/

/-- The part of `CreateEngine` that takes a thread and a queue. Every failure
here is RETCODE_OUT_OF_MEMORY. -/
def popResources (pools : Pools Task) (env : Env) :
    Option (Nat × Nat) × Pools Task :=
  let (hasThreadPool, pools) := pools.threadPoolInstance env.newThreadPool
  if ¬ hasThreadPool then (none, pools)
  else
    match pools.threadPop env.newThread with
    | (none, pools) => (none, pools)
    | (some thread, pools) =>
        let (hasQueuePool, pools) :=
          pools.queuePoolInstance maxSyncMsgNum env.newQueuePool
        if ¬ hasQueuePool then (none, pools)
        else
          match pools.queuePop env.newQueue with
          | (none, pools) => (none, pools.threadPush thread)
          | (some queue, pools) => (some (thread, queue), pools)

/-- The part of `CreateEngine` that makes the engine. One whose
initialisation failed is handed out too, and its holder will destroy it. -/
def buildEngine (s : Server) (env : Env) (plugin : Plugin)
    (thread queue : Nat) : Int × Option Nat × Server :=
  if ¬ env.newEngine then
    (Retcode.engineNotExist, none,
      { s with pools := (s.pools.queuePush queue).threadPush thread })
  else
    let e := s.engineNum
    let engine : Engine := ⟨0, plugin, thread, queue, none⟩
    let s := { s with engine := s.engine.insert e engine, engineNum := e + 1 }
    match s.engineInitialize env e engine with
    | (retCode, s) =>
        if retCode ≠ Retcode.success then
          (retCode, some e,
            { s with pools := (s.pools.queuePush queue).threadPush thread })
        else (Retcode.success, some e, s)

/-- `CreateEngine`. -/
def createEngine (s : Server) (env : Env) (engineKey : EngineKey) :
    Int × Option Nat × Server :=
  match getPluginManager s.pluginManager env.plugins.newPluginManager with
  | none => (Retcode.nullParam, none, s)
  | some manager =>
      match manager.getPlugin env.plugins engineKey.aid engineKey.version with
      | (retCode, none, manager) =>
          (retCode, none, { s with pluginManager := some manager })
      | (_, some plugin, manager) =>
          let s := { s with pluginManager := some manager }
          match popResources s.pools env with
          | (none, pools) => (Retcode.outOfMemory, none, { s with pools })
          | (some (thread, queue), pools) =>
              { s with pools }.buildEngine env plugin thread queue

/-- `CreateEngineWithCheck`. -/
def createEngineWithCheck (s : Server) (env : Env) (engineKey : EngineKey) :
    Int × Option Nat × Server :=
  match s.findEngineByKey engineKey with
  | some e => (Retcode.success, some e, s)
  | none =>
      match s.createEngine env engineKey with
      | (retCode, some e, s) =>
          if retCode ≠ Retcode.success then (retCode, some e, s)
          else
            (Retcode.success, some e,
              { s with engines := s.engines.insert engineKey e })
      | (retCode, none, s) => (retCode, none, s)

/-- The part of `StartEngine` that has an engine. The engine is in a map
here, so the pointer of the call is not the last one. -/
def prepareEngine (s : Server) (env : Env) (transactionId : Int64) (e : Nat)
    (inputInfo outputInfo : DataInfo) : Int × DataInfo × Server :=
  match s.engine.lookup e with
  | none => (Retcode.failure, outputInfo, s)
  | some engine =>
      match env.prepare transactionId inputInfo outputInfo with
      | (retCode, outputInfo) =>
          if retCode ≠ Retcode.success then (retCode, outputInfo, s)
          else
            let s := s.setRefCount e engine (engine.refCount + 1)
            (Retcode.success, outputInfo, s.recordClient env transactionId e)

/-- `StartEngine`. -/
def startEngine (s : Server) (env : Env) (transactionId : Int64)
    (algoInfo : AlgorithmInfo) (inputInfo outputInfo : DataInfo) :
    Int × DataInfo × Server :=
  let aid := getAlgorithmIdByType algoInfo.algorithmType
  if aid = algorithmIdInvalid then
    (Retcode.algorithmIdInvalid, outputInfo, s)
  else
    let engineKey : EngineKey := ⟨aid, algoInfo.algorithmVersion⟩
    match s.findEngineByKey engineKey with
    | some e => s.prepareEngine env transactionId e inputInfo outputInfo
    | none =>
        match s.createEngineWithCheck env engineKey with
        | (retCode, none, s) => (retCode, outputInfo, s)
        | (retCode, some e, s) =>
            if retCode ≠ Retcode.success then
              (retCode, outputInfo, s.dropEngine env e)
            else s.prepareEngine env transactionId e inputInfo outputInfo

/-- What `StopEngine` returns, and the flag it passed to the plugin, if it
came that far. -/
structure StopResult where
  retCode : Int
  isFullUnload : Option Bool
  server : Server

/-- The part of `StopEngine` after the plugin has released its part. -/
def unloadEngine (s : Server) (env : Env) (transactionId : Int64) (e : Nat)
    (engine : Engine) : Int × Server :=
  let refCount := engine.refCount - 1
  let s := s.setRefCount e engine refCount
  if refCount = 0 then
    match getPluginManager s.pluginManager env.plugins.newPluginManager with
    | none => (Retcode.nullParam, s)
    | some manager =>
        let aid := engine.plugin.aid
        let version := engine.plugin.version
        let s :=
          { s with pluginManager := some (manager.unloadPlugin aid version) }
        (Retcode.success,
          ((s.delEngine ⟨aid, version⟩).unRecordClient transactionId).dropEngine
            env e)
  else
    (Retcode.success, (s.unRecordClient transactionId).dropEngine env e)

/-- `StopEngine`. -/
def stopEngine (s : Server) (env : Env) (transactionId : Int64)
    (inputInfo : DataInfo) : StopResult :=
  match s.findEngine transactionId with
  | none => ⟨Retcode.saServiceException, none, s⟩
  | some e =>
      match s.engine.lookup e with
      | none => ⟨Retcode.saServiceException, none, s⟩
      | some engine =>
          let isFullUnload := engine.refCount == pluginNumForUnload
          let retCode := env.release isFullUnload transactionId inputInfo
          if retCode ≠ Retcode.success then
            ⟨retCode, some isFullUnload, s⟩
          else
            match s.unloadEngine env transactionId e engine with
            | (retCode, s) => ⟨retCode, some isFullUnload, s⟩

/-- `SetOption`. -/
def setOption (s : Server) (env : Env) (transactionId : Int64)
    (optionType : Int32) (inputInfo : DataInfo) : Int × Server :=
  match s.findEngine transactionId with
  | none => (Retcode.saServiceException, s)
  | some _ => (env.setOption optionType inputInfo, s)

/-- `GetOption`. -/
def getOption (s : Server) (env : Env) (transactionId : Int64)
    (optionType : Int32) (inputInfo outputInfo : DataInfo) :
    Int × DataInfo × Server :=
  match s.findEngine transactionId with
  | none => (Retcode.saServiceException, outputInfo, s)
  | some _ =>
      match env.getOption optionType inputInfo outputInfo with
      | (retCode, outputInfo) => (retCode, outputInfo, s)

end Server

/-- A call to the manager, with the environment it finds. -/
inductive ServerCall where
  | startEngine (env : Env) (transactionId : Int64) (algoInfo : AlgorithmInfo)
      (inputInfo outputInfo : DataInfo)
  | stopEngine (env : Env) (transactionId : Int64) (inputInfo : DataInfo)
  | setOption (env : Env) (transactionId : Int64) (optionType : Int32)
      (inputInfo : DataInfo)
  | getOption (env : Env) (transactionId : Int64) (optionType : Int32)
      (inputInfo outputInfo : DataInfo)

/-- The server after a call. -/
def Server.call (s : Server) : ServerCall → Server
  | .startEngine env transactionId algoInfo inputInfo outputInfo =>
      (s.startEngine env transactionId algoInfo inputInfo outputInfo).2.2
  | .stopEngine env transactionId inputInfo =>
      (s.stopEngine env transactionId inputInfo).server
  | .setOption env transactionId optionType inputInfo =>
      (s.setOption env transactionId optionType inputInfo).2
  | .getOption env transactionId optionType inputInfo outputInfo =>
      (s.getOption env transactionId optionType inputInfo outputInfo).2.2

/-- Any calls, one after the other. -/
def serverMachine : Machine Server ServerCall where
  start := fun s => s = .initial
  step := fun s c => some (s.call c)

end AiEngine.Ref
