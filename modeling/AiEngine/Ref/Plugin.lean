import Mathlib.Data.Finmap
import AiEngine.Lib.Table
import AiEngine.Ref.Platform

/-!
# Plugins

`plugin_manager.cpp`, `plugin.cpp`, `plugin_label.cpp` and
`aie_plugin_info.cpp`. The plugin manager maps an algorithm id and a version
to the plugin loaded for them. What the dynamic loader and the allocator
answer is an environment the callers pass along.
-/

namespace AiEngine.Ref

open AiEngine.Lib

def algorithmIdInvalid : String := "invalid algorithm id"

/-- `ALGORITHM_TYPE_ID_LIST`. -/
def algorithmTypeIdList : List String :=
  ["sample_plugin_1", "sample_plugin_2", "asr_keyword_spotting",
    "cv_image_classification", "cv_card_rectification"]

def getAlgorithmIdByType (type : Int32) : String :=
  if (algorithmTypeIdList.length : Int) ≤ type.toInt ∨ type.toInt < 0 then
    algorithmIdInvalid
  else algorithmTypeIdList.getD type.toInt.toNat algorithmIdInvalid

/-- `PluginLabel::GetLibPath`, none where it fails. -/
def getLibPath (aid : String) (version : Int64) : Option String :=
  let label := aid ++ "+" ++ toString version
  if label = "cv_card_rectification+20001001" then
    some "/usr/lib/libcv_card_rectification.so"
  else if label = "sample_plugin_1+1" then
    some "/usr/lib/libsample_plugin_1.so"
  else if label = "sample_plugin_2+1" then
    some "/usr/lib/libsample_plugin_2.so"
  else if label = "asr_keyword_spotting+20001002" then
    some "/usr/lib/libasr_keyword_spotting.so"
  else if label = "cv_image_classification+20001001" then
    some "/usr/lib/libcv_image_classification.so"
  else none

/-- What loading a plugin asks of the system: the allocations, the loader,
and the plugin the library hands out. -/
structure PluginEnv where
  newPluginManager : Bool
  newPluginLabel : Bool
  dlopen : String → Bool
  dlsym : String → Bool
  /-- Whether the library's interface function returns an object. -/
  newPluginAlgorithm : String → Bool
  /-- `GetInferMode()` of that object, none for a null pointer. -/
  inferMode : String → Option String

/-- A loaded plugin: `Plugin` with its `IPlugin`, of which the server reads
the inference mode. -/
structure Plugin where
  aid : String
  version : Int64
  inferMode : Option String
  deriving DecidableEq, Repr

/-- `Plugin(aid, version)` and `LoadPluginAlgorithm`. The label singleton is
always allocated here: the temporary `Plugin` that `LoadPlugin` copies from
has released it in its destructor. -/
def loadPluginAlgorithm (env : PluginEnv) (aid : String) (version : Int64) :
    Int × Option Plugin :=
  if env.newPluginLabel then
    match getLibPath aid version with
    | none => (Retcode.failure, none)
    | some libPath =>
        if ¬ env.dlopen libPath then (Retcode.openSoFailed, none)
        else if ¬ env.dlsym libPath then (Retcode.soLackSymbol, none)
        else if ¬ env.newPluginAlgorithm libPath then
          (Retcode.nullParam, none)
        else
          (Retcode.success, some ⟨aid, version, env.inferMode libPath⟩)
  else (Retcode.failure, none)

structure PluginKey where
  aid : String
  version : Int64
  deriving DecidableEq, Repr

/-- `PluginManager`: its map. -/
structure PluginManager where
  pluginMap : Table PluginKey Plugin

/-- `IPluginManager::GetPluginManager()` on the instance, if there is one. -/
def getPluginManager (instance_ : Option PluginManager)
    (newPluginManager : Bool) : Option PluginManager :=
  match instance_ with
  | some manager => some manager
  | none => if newPluginManager then some ⟨∅⟩ else none

namespace PluginManager

def findPlugin (m : PluginManager) (key : PluginKey) : Option Plugin :=
  m.pluginMap.lookup key

def addPlugin (m : PluginManager) (key : PluginKey) (plugin : Plugin) :
    PluginManager :=
  ⟨m.pluginMap.insert key plugin⟩

def delPlugin (m : PluginManager) (key : PluginKey) : PluginManager :=
  ⟨m.pluginMap.erase key⟩

def loadPlugin (m : PluginManager) (env : PluginEnv) (aid : String)
    (version : Int64) : Int × Option Plugin × PluginManager :=
  match loadPluginAlgorithm env aid version with
  | (ret, none) => (ret, none, m)
  | (ret, some plugin) => (ret, some plugin, m.addPlugin ⟨aid, version⟩ plugin)

def getPlugin (m : PluginManager) (env : PluginEnv) (aid : String)
    (version : Int64) : Int × Option Plugin × PluginManager :=
  match m.findPlugin ⟨aid, version⟩ with
  | some plugin => (Retcode.success, some plugin, m)
  | none => m.loadPlugin env aid version

def unloadPlugin (m : PluginManager) (aid : String) (version : Int64) :
    PluginManager :=
  match m.findPlugin ⟨aid, version⟩ with
  | some _ => m.delPlugin ⟨aid, version⟩
  | none => m

end PluginManager

end AiEngine.Ref
