import Mathlib.Data.Finset.Sort
import AiEngine.Lib.Machine
import AiEngine.Ref.Plugin

/-!
# The handles of the keyword spotting and image classification plugins

`Prepare` and `Release` of `kws_plugin.cpp` and `ic_plugin.cpp`. The inference
adapter is not part of the sources. It has a set of open handles: an `Init`
that succeeds adds a new one to it, a `ReleaseHandle` that succeeds takes one
out, and no other call changes it. Which calls succeed is up to the adapter,
and so is what the codec and the feature processors answer. The processors of
a handle are not used here, so that of a workplace the configuration is left.
-/

namespace AiEngine.Ref

open AiEngine.Lib

/-! ## The adapter

The inference engine behind a plugin, as far as its handles go: `init` opens
one that was not open, and `releaseHandle` closes the one it is given. -/

/-- `EngineAdapter`. -/
structure EngineAdapter where
  opened : Finset Int
  deriving DecidableEq

namespace EngineAdapter

/-- `Init`, with the handle of an algorithm if there is one. -/
def init (e : EngineAdapter) : Option Int → EngineAdapter
  | none => e
  | some handle => ⟨insert handle e.opened⟩

/-- `ReleaseHandle`. -/
def releaseHandle (e : EngineAdapter) (handle retCode : Int) :
    EngineAdapter :=
  if retCode = Retcode.success then ⟨e.opened.erase handle⟩ else e

end EngineAdapter

/-- What the adapter answers to `GetInputAddr` or `GetOutputAddr`. -/
structure AddrReply where
  retCode : Int
  addr : Nat
  size : Nat
  deriving DecidableEq, Repr

/-- `PluginConfig`. -/
structure PluginConfig where
  inputSize : Nat
  outputSize : Nat
  inputAddr : Nat
  outputAddr : Nat
  deriving DecidableEq, Repr

/-- `ICPluginConfig`, with addresses in place of what they lead to. -/
structure ICModelConfig extends PluginConfig where
  maxOutputSize : Nat
  deriving DecidableEq, Repr

/-- `KWSWorkplace`. -/
structure KWSWorkplace where
  config : PluginConfig
  deriving DecidableEq, Repr

/-- What a call of `Prepare` meets. -/
structure PrepareReply where
  /-- Whether an adapter can be created. -/
  newAdapter : Bool
  /-- The new handle, if `Init` succeeds. -/
  init : Option Int
  inputAddr : AddrReply
  outputAddr : AddrReply
  encode : Int
  deriving DecidableEq, Repr

/-- What a call of `KWSPlugin::Prepare` meets: besides, what the `Init` of
each processor answers. -/
structure KWSPrepareReply extends PrepareReply where
  slideInit : Int
  convertInit : Int
  normInit : Int
  deriving DecidableEq, Repr

/-- What a call of `Release` meets; `handle` is what is decoded. -/
structure ReleaseReply where
  decode : Int
  handle : Int
  releaseHandle : Int
  deinit : Int
  deriving DecidableEq, Repr

/-- `adapter_` and `handles_` of a plugin. -/
structure PluginHandles (ω : Type) where
  adapter : Option EngineAdapter
  handles : Table Int ω

namespace PluginHandles

variable {ω : Type}

def new : PluginHandles ω := ⟨none, ∅⟩

/-- The handles that are open in the adapter. -/
def opened (p : PluginHandles ω) : Finset Int :=
  match p.adapter with
  | none => ∅
  | some adapter => adapter.opened

/-- `adapter_`, created if there is none. -/
def getAdapter (p : PluginHandles ω) (newAdapter : Bool) :
    Option EngineAdapter :=
  match p.adapter with
  | some adapter => some adapter
  | none => if newAdapter then some ⟨∅⟩ else none

/-- `ReleaseAllHandles`, with the answer of the adapter to each handle. It is
none where there is no adapter to call. -/
def releaseAllHandles (p : PluginHandles ω) (retCodes : Int → Int) :
    Option (PluginHandles ω) :=
  match p.adapter with
  | none => none
  | some adapter =>
      some ⟨some ((p.handles.keys.sort (· ≤ ·)).foldl
        (fun adapter handle =>
          adapter.releaseHandle handle (retCodes handle)) adapter), ∅⟩

end PluginHandles

/-! ## `KWSPlugin`

Where `Prepare` of one plugin gives up after a handle was opened, and what it
does about it, is taken from each source as it is. -/

namespace KWSPlugin

/-- `BuildConfig`. -/
def buildConfig (reply : PrepareReply) : Int × Option PluginConfig :=
  if reply.inputAddr.retCode ≠ Retcode.success then (Retcode.nullParam, none)
  else if reply.outputAddr.retCode ≠ Retcode.success then
    (Retcode.nullParam, none)
  else
    (Retcode.success, some ⟨reply.inputAddr.size, reply.outputAddr.size,
      reply.inputAddr.addr, reply.outputAddr.addr⟩)

/-- `InitWorkplace`, which `InitComponents` calls with its configurations. -/
def initComponents (reply : KWSPrepareReply) : Int :=
  if reply.slideInit ≠ Retcode.success then Retcode.failure
  else if reply.convertInit ≠ Retcode.success then Retcode.failure
  else if reply.normInit ≠ Retcode.success then Retcode.failure
  else Retcode.success

/-- `Prepare`. -/
def prepare (p : PluginHandles KWSWorkplace) (reply : KWSPrepareReply) :
    Int × PluginHandles KWSWorkplace :=
  match p.getAdapter reply.newAdapter with
  | none => (Retcode.failure, p)
  | some adapter =>
      let p := { p with adapter := some (adapter.init reply.init) }
      match reply.init with
      | none => (Retcode.failure, p)
      | some handle =>
          if handle ∈ p.handles then (Retcode.success, p)
          else
            match buildConfig reply.toPrepareReply with
            | (_, none) => (Retcode.failure, p)
            | (_, some config) =>
                if initComponents reply ≠ Retcode.success then
                  (Retcode.failure, p)
                else
                  (reply.encode, { p with
                    handles := p.handles.insertNew handle ⟨config⟩ })

/-- `FreeHandle`. -/
def freeHandle (p : PluginHandles KWSWorkplace) (handle : Int) :
    PluginHandles KWSWorkplace :=
  { p with handles := p.handles.erase handle }

/-- `Release`. -/
def release (p : PluginHandles KWSWorkplace) (isFullUnload : Bool)
    (reply : ReleaseReply) : Int × PluginHandles KWSWorkplace :=
  match p.adapter with
  | none => (Retcode.failure, p)
  | some adapter =>
      if reply.decode ≠ Retcode.success then (Retcode.failure, p)
      else
        let adapter :=
          adapter.releaseHandle reply.handle reply.releaseHandle
        let p := { p with adapter := some adapter }
        if reply.releaseHandle ≠ Retcode.success then (Retcode.failure, p)
        else
          let p := freeHandle p reply.handle
          if isFullUnload ∧ reply.deinit ≠ Retcode.success then
            (Retcode.failure, p)
          else (Retcode.success, p)

end KWSPlugin

namespace ICPlugin

/-- `DEFAULT_OUTPUT_SIZE`. -/
def defaultOutputSize : Nat := 5

/-- `BuildConfig`. -/
def buildConfig (reply : PrepareReply) : Int × Option ICModelConfig :=
  if reply.inputAddr.retCode ≠ Retcode.success then (Retcode.failure, none)
  else if reply.outputAddr.retCode ≠ Retcode.success then
    (Retcode.failure, none)
  else
    (Retcode.success, some {
      inputSize := reply.inputAddr.size
      outputSize := defaultOutputSize
      inputAddr := reply.inputAddr.addr
      outputAddr := reply.outputAddr.addr
      maxOutputSize := reply.outputAddr.size })

/-- `Prepare`. -/
def prepare (p : PluginHandles ICModelConfig) (reply : PrepareReply) :
    Int × PluginHandles ICModelConfig :=
  match p.getAdapter reply.newAdapter with
  | none => (Retcode.failure, p)
  | some adapter =>
      let p := { p with adapter := some (adapter.init reply.init) }
      match reply.init with
      | none => (Retcode.failure, p)
      | some handle =>
          if handle ∈ p.handles then (Retcode.success, p)
          else
            match buildConfig reply with
            | (_, none) => (Retcode.failure, p)
            | (_, some config) =>
                (reply.encode, { p with
                  handles := p.handles.insertNew handle config })

/-- `Release`, which looks for the handle first. -/
def release (p : PluginHandles ICModelConfig) (isFullUnload : Bool)
    (reply : ReleaseReply) : Int × PluginHandles ICModelConfig :=
  match p.adapter with
  | none => (Retcode.failure, p)
  | some adapter =>
      if reply.decode ≠ Retcode.success then (Retcode.failure, p)
      else if reply.handle ∉ p.handles then (Retcode.nullParam, p)
      else
        let adapter :=
          adapter.releaseHandle reply.handle reply.releaseHandle
        let p := { p with adapter := some adapter }
        if reply.releaseHandle ≠ Retcode.success then (Retcode.failure, p)
        else
          let p := { p with handles := p.handles.erase reply.handle }
          if isFullUnload ∧ reply.deinit ≠ Retcode.success then
            (Retcode.failure, p)
          else (Retcode.success, p)

end ICPlugin

/-! ## Runs

The two plugins have the same interface and differ in their values and in what
`Prepare` does on its way. A run is over one of them, with the handles that
clients have got and not released. -/

/-- The two entry points of a plugin class; `base` is what every `Prepare`
meets. -/
structure PluginClass (ω ρ : Type) where
  base : ρ → PrepareReply
  prepare : PluginHandles ω → ρ → Int × PluginHandles ω
  release : PluginHandles ω → Bool → ReleaseReply → Int × PluginHandles ω

def kwsPlugin : PluginClass KWSWorkplace KWSPrepareReply :=
  ⟨KWSPrepareReply.toPrepareReply, KWSPlugin.prepare, KWSPlugin.release⟩

def icPlugin : PluginClass ICModelConfig PrepareReply :=
  ⟨id, ICPlugin.prepare, ICPlugin.release⟩

inductive PluginCall (ρ : Type) where
  | prepare (reply : ρ)
  | release (isFullUnload : Bool) (reply : ReleaseReply)

/-- The latest call: what it returned and which handles were open before it. -/
inductive PluginAnswer where
  | prepared (retCode : Int) (before : Finset Int)
  | released (retCode handle : Int) (before : Finset Int)
  deriving DecidableEq

structure PluginRun (ω : Type) where
  plugin : PluginHandles ω
  latest : Option PluginAnswer

namespace PluginClass

variable {ω ρ : Type} (c : PluginClass ω ρ)

def call (s : PluginRun ω) : PluginCall ρ → PluginRun ω
  | .prepare reply =>
      let (retCode, p) := c.prepare s.plugin reply
      ⟨p, some (.prepared retCode s.plugin.opened)⟩
  | .release isFullUnload reply =>
      let (retCode, p) := c.release s.plugin isFullUnload reply
      ⟨p, some (.released retCode reply.handle s.plugin.opened)⟩

/-- The handle that `Init` returns is a new one. -/
def newHandle (s : PluginRun ω) : PluginCall ρ → Bool
  | .prepare reply =>
      match (c.base reply).init with
      | none => true
      | some handle => handle ∉ s.plugin.opened
  | .release _ _ => true

def machine : Machine (PluginRun ω) (PluginCall ρ) where
  start s := s = ⟨.new, none⟩
  step s i := if c.newHandle s i then some (c.call s i) else none

end PluginClass

/-- The open handles are the registered ones. A `Prepare` that returned an
error has left the open handles as they were, and a `Release` that returned
one has left its handle open and registered. -/
structure PluginRun.Accounted {ω : Type} (s : PluginRun ω) : Prop where
  balanced : s.plugin.opened = s.plugin.handles.keys
  prepared : ∀ retCode before, s.latest = some (.prepared retCode before) →
    retCode ≠ Retcode.success → s.plugin.opened = before
  released : ∀ retCode handle before,
    s.latest = some (.released retCode handle before) →
    retCode ≠ Retcode.success → handle ∈ before →
      handle ∈ s.plugin.opened ∧ handle ∈ s.plugin.handles

end AiEngine.Ref
