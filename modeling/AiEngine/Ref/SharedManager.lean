import AiEngine.Lib.Machine
import AiEngine.Ref.EngineManager

/-!
# The engine manager in the hands of several threads

`StartEngine` and `StopEngine` of `engine_manager.cpp`, each in the steps that
other threads can come between: what is done under one lock, one call of the
plugin, one access of a reference count. Plugins do what they are asked. A
call is known by its transaction, and no transaction is in two calls or is
started while it is recorded.

Engines and plugins are shared pointers. What no map and no call leads to any
more has been destroyed, and is kept here as it was, for nobody to see.
-/

namespace AiEngine.Ref

open AiEngine.Lib

/-- A loaded `Plugin`, numbered in the order of loading. -/
structure SharedPlugin where
  id : Nat
  aid : String
  version : Int64
  deriving DecidableEq, Repr

/-- What the plugin is asked for by. -/
def SharedPlugin.key (p : SharedPlugin) : EngineKey := ⟨p.aid, p.version⟩

/-- `Engine`, with its plugin. -/
structure SharedEngine where
  refCount : Int
  plugin : SharedPlugin
  deriving DecidableEq, Repr

/-- What a call that has an engine does next. -/
inductive EngineWork where
  | prepare
  | addReference
  | recordClient
  | readReference
  | release (isFullUnload : Bool)
  | delReference
  | testReference
  | findPlugin
  | delPlugin
  | delEngine
  | unRecordClient
  deriving DecidableEq, Repr

/-- A call under way: it has found no engine, or has a pointer to one. -/
inductive EngineCall where
  | createEngineWithCheck (engineKey : EngineKey)
  | work (engine : Nat) (phase : EngineWork)
  deriving DecidableEq, Repr

/-- What a creation finds outside the manager: whether the plugin can be
loaded, and whether there are a thread, a queue and memory. -/
structure CreationEnv where
  loaded : Bool
  created : Bool
  deriving DecidableEq, Repr

/-- The maps of the two managers, the engines that were made, and the calls
under way. -/
structure SharedManager where
  engines : Table EngineKey Nat
  clientEngines : Table Int64 Nat
  pluginMap : Table EngineKey SharedPlugin
  engine : Table Nat SharedEngine
  engineNum : Nat
  pluginNum : Nat
  call : Table Int64 EngineCall

inductive ManagerStep where
  | startEngine (transactionId : Int64) (algoInfo : AlgorithmInfo)
  | stopEngine (transactionId : Int64)
  | proceed (transactionId : Int64) (env : CreationEnv)

namespace SharedManager

def initial : SharedManager where
  engines := ∅
  clientEngines := ∅
  pluginMap := ∅
  engine := ∅
  engineNum := 0
  pluginNum := 0
  call := ∅

def setCall (s : SharedManager) (transactionId : Int64) (call : EngineCall) :
    SharedManager :=
  { s with call := s.call.insert transactionId call }

def endCall (s : SharedManager) (transactionId : Int64) : SharedManager :=
  { s with call := s.call.erase transactionId }

/-- `StartEngine` up to `FindEngine(engineKey)`. -/
def startEngine (s : SharedManager) (transactionId : Int64)
    (algoInfo : AlgorithmInfo) : SharedManager :=
  let aid := getAlgorithmIdByType algoInfo.algorithmType
  if aid = algorithmIdInvalid then s
  else
    let engineKey : EngineKey := ⟨aid, algoInfo.algorithmVersion⟩
    match s.engines.lookup engineKey with
    | some engine => s.setCall transactionId (.work engine .prepare)
    | none => s.setCall transactionId (.createEngineWithCheck engineKey)

/-- `StopEngine` up to `FindEngine(transactionId)`. -/
def stopEngine (s : SharedManager) (transactionId : Int64) : SharedManager :=
  match s.clientEngines.lookup transactionId with
  | none => s
  | some engine => s.setCall transactionId (.work engine .readReference)

/-- `GetPlugin(aid, version)`. -/
def getPlugin (s : SharedManager) (engineKey : EngineKey) (loaded : Bool) :
    Option SharedPlugin × SharedManager :=
  match s.pluginMap.lookup engineKey with
  | some plugin => (some plugin, s)
  | none =>
      if loaded then
        let plugin := ⟨s.pluginNum, engineKey.aid, engineKey.version⟩
        (some plugin, { s with
          pluginMap := s.pluginMap.insert engineKey plugin
          pluginNum := s.pluginNum + 1 })
      else (none, s)

/-- `CreateEngineWithCheck`. A call that gets no engine returns. -/
def createEngineWithCheck (s : SharedManager) (transactionId : Int64)
    (engineKey : EngineKey) (env : CreationEnv) : SharedManager :=
  match s.engines.lookup engineKey with
  | some engine => s.setCall transactionId (.work engine .prepare)
  | none =>
      match s.getPlugin engineKey env.loaded with
      | (none, s) => s.endCall transactionId
      | (some plugin, s) =>
          if env.created then
            { s.setCall transactionId (.work s.engineNum .prepare) with
              engine := s.engine.insert s.engineNum ⟨0, plugin⟩
              engineNum := s.engineNum + 1
              engines := s.engines.insert engineKey s.engineNum }
          else s.endCall transactionId

/-- An access of `refCount_` that changes it. -/
def addToRefCount (s : SharedManager) (engine : Nat) (x : SharedEngine)
    (n : Int) : SharedManager :=
  { s with
    engine := s.engine.insert engine { x with refCount := x.refCount + n } }

/-- The next step of a call with an engine. -/
def proceedWith (s : SharedManager) (transactionId : Int64) (engine : Nat)
    (x : SharedEngine) (phase : EngineWork) : SharedManager :=
  let next (s : SharedManager) (phase : EngineWork) : SharedManager :=
    s.setCall transactionId (.work engine phase)
  match phase with
  | .prepare => next s .addReference
  | .addReference => next (s.addToRefCount engine x 1) .recordClient
  | .recordClient =>
      { s.endCall transactionId with
        clientEngines := s.clientEngines.insert transactionId engine }
  | .readReference => next s (.release (x.refCount == 1))
  | .release _ => next s .delReference
  | .delReference => next (s.addToRefCount engine x (-1)) .testReference
  | .testReference =>
      if x.refCount = 0 then next s .findPlugin else next s .unRecordClient
  | .findPlugin =>
      match s.pluginMap.lookup x.plugin.key with
      | some _ => next s .delPlugin
      | none => next s .delEngine
  | .delPlugin =>
      { next s .delEngine with
        pluginMap := s.pluginMap.erase x.plugin.key }
  | .delEngine =>
      { next s .unRecordClient with
        engines := s.engines.erase x.plugin.key }
  | .unRecordClient =>
      { s.endCall transactionId with
        clientEngines := s.clientEngines.erase transactionId }

/-- The next step of a call. -/
def proceed (s : SharedManager) (transactionId : Int64) (env : CreationEnv)
    (call : EngineCall) : Option SharedManager :=
  match call with
  | .createEngineWithCheck engineKey =>
      some (s.createEngineWithCheck transactionId engineKey env)
  | .work engine phase =>
      match s.engine.lookup engine with
      | some x => some (s.proceedWith transactionId engine x phase)
      | none => none

def take (s : SharedManager) : ManagerStep → Option SharedManager
  | .startEngine transactionId algoInfo =>
      if transactionId ∉ s.call ∧ transactionId ∉ s.clientEngines then
        some (s.startEngine transactionId algoInfo)
      else none
  | .stopEngine transactionId =>
      if transactionId ∉ s.call then some (s.stopEngine transactionId)
      else none
  | .proceed transactionId env =>
      match s.call.lookup transactionId with
      | some call => s.proceed transactionId env call
      | none => none

end SharedManager

/-- Any number of threads that start and stop engines. -/
def managerMachine : Machine SharedManager ManagerStep where
  start s := s = .initial
  step := SharedManager.take

end AiEngine.Ref
