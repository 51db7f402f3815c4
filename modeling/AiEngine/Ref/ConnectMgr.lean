import AiEngine.Lib.Machine
import AiEngine.Ref.ClientFactory

/-!
# The threads of a connection

`ConnectMgrWorker`, `SaDeathCallback` and `CloseAiServer`, which write the
client's id from three threads without a lock. A step is what a thread does
between two accesses to what the others write; taken in one go, the steps of a
call are the call as `ClientFactory` has it.

Workers are numbered. A worker that left its loop by itself is not waited for
when the connection is closed, so it can still be in `Uninitialize` when the
next one runs. `InitAiServer` is called for the first session only, and the
last one closed the connection, so no other worker is in its loop then.
-/

namespace AiEngine.Ref

open AiEngine.Lib

/-- What the thread of a `ConnectMgrWorker` does next: look at `running_`; in
`OneAction` look at the client's id, call `Init`, set the client's id and the
server's uid; in `Uninitialize` call `Destroy` and set the client's id. -/
inductive WorkerPhase where
  | loop
  | getClientId
  | init
  | setClientId
  | setServerUid
  | destroy
  | resetClientId
  | ended
  deriving DecidableEq, Repr

/-- `Thread::IsActive`: the thread has not left its loop. -/
def WorkerPhase.active : WorkerPhase → Bool
  | .destroy => false
  | .resetClientId => false
  | .ended => false
  | _ => true

/-- A `ConnectMgrWorker` with its thread's `running_`. -/
structure ConnectThread where
  clientInfo : ClientInfo
  running : Bool
  phase : WorkerPhase
  deriving DecidableEq, Repr

/-- Which of its four writes `ResetClient` does next. -/
inductive ResetPhase where
  | idle
  | clientId
  | sessionId
  | serverUid
  | clientIdAgain
  deriving DecidableEq, Repr

/-- The client with its threads. The worker of `connectMgrThread_` is
`connectMgr`, and `closing` is the one whose end `CloseAiServer` waits for.
`latest` is not in the code: it is the id that the latest successful `Init`
got, if no server died since. -/
structure ConnectState where
  client : ClientFactory
  worker : Nat → ConnectThread
  workerNum : Nat
  connectMgr : Option Nat
  closing : Option Nat
  reset : ResetPhase
  latest : Option Int32

inductive ConnectStep where
  | initAiServer (env : ClientEnv) (clientInfo : ClientInfo)
  | worker (n : Nat) (reply : ConnectReply)
  | closeAiServer (env : ClientEnv)
  | threadEnded (env : ClientEnv)
  | saDeathCallback
  | resetClient

namespace ConnectState

def initial : ConnectState where
  client := .initial
  worker := fun _ => ⟨ClientInfo.zero, false, .ended⟩
  workerNum := 0
  connectMgr := none
  closing := none
  reset := .idle
  latest := none

def setWorker (s : ConnectState) (n : Nat) (w : ConnectThread) : ConnectState :=
  { s with worker := Function.update s.worker n w }

/-- The next step of a worker's thread. -/
def workerStep (s : ConnectState) (n : Nat) (env : ConnectReply) :
    Option ConnectState :=
  let w := s.worker n
  match w.phase with
  | .loop =>
      let phase := if w.running then .getClientId else .destroy
      some (s.setWorker n { w with phase })
  | .getClientId =>
      let phase := if s.client.clientId ≠ invalidClientId then .loop else .init
      some (s.setWorker n { w with phase })
  | .init =>
      match s.client.saClientInstance env.newSaClient with
      | none => some (s.setWorker n { w with phase := .destroy })
      | some c =>
          match c.init env w.clientInfo with
          | (retCode, clientInfo, c) =>
              let s := { s with client := { s.client with saClient := some c } }
              if retCode ≠ Retcode.success ∨
                  clientInfo.clientId = invalidClientId then
                some (s.setWorker n { w with clientInfo, phase := .loop })
              else
                some ({ s with latest := some clientInfo.clientId }.setWorker n
                  { w with clientInfo, phase := .setClientId })
  | .setClientId =>
      let client := { s.client with clientId := w.clientInfo.clientId }
      some ({ s with client }.setWorker n { w with phase := .setServerUid })
  | .setServerUid =>
      let client := { s.client with serverUid := w.clientInfo.serverUid }
      some ({ s with client }.setWorker n { w with phase := .loop })
  | .destroy =>
      match s.client.saClientInstance env.newSaClient with
      | none => some (s.setWorker n { w with phase := .ended })
      | some c =>
          let client := { s.client with saClient := some { c with proxy := false } }
          some ({ s with client }.setWorker n { w with phase := .resetClientId })
  | .resetClientId =>
      let client := { s.client with clientId := invalidClientId }
      some ({ s with client }.setWorker n { w with phase := .ended })
  | .ended => none

/-- The end of `CloseAiServer`, when the thread is stopped. -/
def finishClose (s : ConnectState) (env : ClientEnv) : ConnectState :=
  if ¬ (s.client.hasThreadPool || env.newThreadPool) then s
  else
    { s with
      client := { s.client with hasThreadPool := true }
      connectMgr := none }

/-- The next write of `ResetClient`. -/
def resetStep (s : ConnectState) : Option ConnectState :=
  match s.reset with
  | .idle => none
  | .clientId =>
      some { s with
        client := { s.client with clientId := invalidClientId }
        reset := .sessionId }
  | .sessionId =>
      some { s with
        client := { s.client with sessionId := invalidSessionId.toInt }
        reset := .serverUid }
  | .serverUid =>
      some { s with
        client := { s.client with serverUid := invalidUid }
        reset := .clientIdAgain }
  | .clientIdAgain =>
      some { s with
        client := { s.client with clientId := invalidUid.toInt32 }
        reset := .idle }

def step (s : ConnectState) : ConnectStep → Option ConnectState
  | .initAiServer env clientInfo =>
      if s.closing ≠ none ∨
          ∃ n ∈ s.connectMgr, (s.worker n).phase.active then none
      else if ¬ (s.client.hasThreadPool || env.newThreadPool) then some s
      else
        let client := { s.client with hasThreadPool := true }
        if ¬ env.newThread ∨ ¬ env.newConnectMgrWorker ∨ ¬ env.startThread then
          some { s with client, connectMgr := none }
        else
          some ({ s with
            client
            workerNum := s.workerNum + 1
            connectMgr := some s.workerNum }.setWorker s.workerNum
              ⟨clientInfo, true, .loop⟩)
  | .worker n reply => s.workerStep n reply
  | .closeAiServer env =>
      if s.closing ≠ none then none
      else
        match s.connectMgr with
        | none => some s
        | some n =>
            if (s.worker n).phase.active then
              some ({ s with closing := some n }.setWorker n
                { s.worker n with running := false })
            else some (s.finishClose env)
  | .threadEnded env =>
      match s.closing with
      | none => none
      | some n =>
          if (s.worker n).phase = .ended then
            some ({ s with closing := none }.finishClose env)
          else none
  | .saDeathCallback =>
      if s.reset = .idle then some { s with reset := .clientId, latest := none }
      else none
  | .resetClient => s.resetStep

end ConnectState

/-- A process from its start. -/
def connectMachine : Machine ConnectState ConnectStep where
  start := fun s => s = .initial
  step := ConnectState.step

end AiEngine.Ref
