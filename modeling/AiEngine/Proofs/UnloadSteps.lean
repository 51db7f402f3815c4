import AiEngine.Ref.ServerExecutor

/-!
# An unload in two parts

`UnloadAlgoWrapper` first stops the callbacks of a session that has any, and
then asks the executor to stop the engine. The two parts touch different
fields of the service, and what an unload keeps is proved for each of them.
-/

namespace AiEngine.Ref

namespace Service

variable {s : Service} {env : ServiceEnv} {clientInfo : ClientInfo}
  {algoInfo : AlgorithmInfo} {input : DataInfo} {a : SaServerAdapter}

/-- The state after the part of `UnloadAlgoWrapper` that stops the
callbacks. -/
def stopCallbacks (s : Service) (env : ServiceEnv) (algoInfo : AlgorithmInfo)
    (tid : Int64) : Service :=
  if algoInfo.isAsync then
    match s.asyncHandler.getInstance env.callbacks.newSaAsyncHandler with
    | (false, _) => s
    | (true, asyncHandler) =>
        { s with
          asyncHandler :=
            (asyncHandler.stopAsyncTransaction s.factory env.callbacks tid).1
          factory :=
            (asyncHandler.stopAsyncTransaction s.factory env.callbacks tid).2 }
  else s

/-- The other part, for an adapter that was found. -/
def endUnload (s : Service) (env : ServiceEnv) (clientInfo : ClientInfo)
    (input : DataInfo) (a : SaServerAdapter) : Int × Service :=
  match s.getExecutor env.newServerExecutor with
  | (false, s) => (Retcode.outOfMemory, s)
  | (true, s) =>
      let tid := getTransactionId a.adapterId clientInfo.sessionId
      let stopped := s.server.stopEngine env.engines tid input
      let s := { s with server := stopped.server }
      if stopped.retCode ≠ Retcode.success then (stopped.retCode, s)
      else
        (Retcode.success, { s with
          adapters := s.adapters.insert clientInfo.clientId
            (removeTransaction a tid) })

theorem unloadAlgo_none (hfind : s.findAdapter clientInfo.clientId = none) :
    s.unloadAlgo env clientInfo algoInfo input =
      (Retcode.noClientFound, s) := by
  rw [unloadAlgo, hfind]

theorem unloadAlgo_some (hfind : s.findAdapter clientInfo.clientId = some a) :
    s.unloadAlgo env clientInfo algoInfo input =
      (s.stopCallbacks env algoInfo
        (getTransactionId a.adapterId clientInfo.sessionId)).endUnload env
          clientInfo input a := by
  rw [unloadAlgo, hfind]
  rfl

/-- The callbacks' part does nothing, or leaves what the handler of callbacks
left. -/
theorem stopCallbacks_cases (s : Service) (env : ServiceEnv)
    (algoInfo : AlgorithmInfo) (tid : Int64) :
    s.stopCallbacks env algoInfo tid = s ∨
      ∃ asyncHandler, s.asyncHandler.getInstance
          env.callbacks.newSaAsyncHandler = (true, asyncHandler) ∧
        s.stopCallbacks env algoInfo tid = { s with
          asyncHandler :=
            (asyncHandler.stopAsyncTransaction s.factory env.callbacks tid).1
          factory := (asyncHandler.stopAsyncTransaction s.factory
            env.callbacks tid).2 } := by
  unfold stopCallbacks
  split
  · split
    · exact .inl rfl
    · next asyncHandler hinst => exact .inr ⟨asyncHandler, hinst, rfl⟩
  · exact .inl rfl

end Service

end AiEngine.Ref
