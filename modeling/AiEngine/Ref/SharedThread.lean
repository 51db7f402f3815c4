import AiEngine.Lib.Machine
import AiEngine.Lib.Table
import AiEngine.Ref.Pools

/-!
# A thread object between its controller and what it has started

`thread.cpp` access by access: one thread calls `StartThread` and
`StopThread` on an object, and the threads that `pthread_create` has made run
`Execute` on the same object. They share `status_`, `running_` and `worker_`
and no lock. What a worker answers is part of the step, and so is what the
thread library answers.

A worker is known by its number. A thread that has been created is known by
the order of its creation, and the handle of the object is the one that was
created last, until it has been joined.
-/

namespace AiEngine.Ref

open AiEngine.Lib

/-- What a created thread does next, in `Execute` and `Run`. The worker is
the local `pWorker`. -/
inductive ExecutePhase where
  | setRunning
  | setStatus
  | readWorker
  | initializing (pWorker : Nat)
  | testRunning (pWorker : Nat)
  | oneAction (pWorker : Nat)
  | addCounter (pWorker : Nat)
  | endRun (pWorker : Nat)
  | uninitializing (pWorker : Nat)
  | endExecute
  | exited
  deriving DecidableEq, Repr

structure Pthread where
  phase : ExecutePhase
  joined : Bool
  deriving DecidableEq, Repr

/-- What the controller does next, in `StartThread` and in `StopThread`. -/
inductive ControlPhase where
  | idle
  | setWorker (pWorker : Nat)
  | testStatus
  | setPrepared
  | createThread
  | createFailed
  | waitPrepared
  | probeThread
  | clearRunning
  | waitRunning
  | waitThread
  /-- `StopThread` has returned. -/
  | stopped
  deriving DecidableEq, Repr

/-- `Thread`, with its threads and its controller. -/
structure SharedThread where
  status : ThreadStatus
  running : Bool
  worker : Option Nat
  handle : Option Nat
  pthread : Table Nat Pthread
  pthreadNum : Nat
  control : ControlPhase

inductive ThreadStep where
  | startThread (pWorker : Option Nat)
  | stopThread
  /-- The next access of the controller, with the answer of the library. -/
  | control (ok : Bool)
  /-- The next access of a thread, with the answer of its worker. -/
  | execute (t : Nat) (ok : Bool)
  deriving DecidableEq, Repr

namespace SharedThread

/-- `Thread()`. -/
def initial : SharedThread where
  status := .stopped
  running := false
  worker := none
  handle := none
  pthread := ∅
  pthreadNum := 0
  control := .idle

/-- The controller is not in a call. -/
def AtRest (s : SharedThread) : Prop := s.control = .idle ∨ s.control = .stopped

instance (s : SharedThread) : Decidable s.AtRest :=
  inferInstanceAs (Decidable (_ ∨ _))

/-- The first access of `StartThread(pWorker)`. -/
def startThread (s : SharedThread) (pWorker : Option Nat) : SharedThread :=
  if s.status = .running then { s with control := .idle }
  else
    match pWorker with
    | none => { s with control := .idle }
    | some pWorker => { s with control := .setWorker pWorker }

/-- The first access of `StopThread()`, the first half of `IsActive()`. -/
def stopThread (s : SharedThread) : SharedThread :=
  if s.status = .running then { s with control := .probeThread }
  else { s with control := .stopped }

/-- Whether a thread runs no more. -/
def hasExited (s : SharedThread) (t : Nat) : Prop :=
  ∃ x ∈ s.pthread.lookup t, x.phase = .exited

instance (s : SharedThread) (t : Nat) : Decidable (s.hasExited t) :=
  decidable_of_iff (s.pthread.lookup t |>.any fun x => x.phase = .exited) (by
    simp [hasExited, Option.any_eq_true])

/-- `pthread_create`, which leaves a thread that has not run yet. -/
def createThread (s : SharedThread) : SharedThread :=
  { s with
    pthread := s.pthread.insert s.pthreadNum ⟨.setRunning, false⟩
    pthreadNum := s.pthreadNum + 1
    handle := some s.pthreadNum
    control := .waitPrepared }

/-- `WaitForEnd()`. A thread is joined when it has exited. -/
def waitThread (s : SharedThread) : Option SharedThread :=
  match s.handle with
  | none => some { s with control := .stopped }
  | some t =>
      if s.hasExited t then
        some { s with
          pthread := s.pthread.insert t ⟨.exited, true⟩
          handle := none
          control := .stopped }
      else none

/-- The next access of `StartThread` or `StopThread`. A thread that has not
exited is found by the probe. -/
def proceed (s : SharedThread) (ok : Bool) : Option SharedThread :=
  match s.control with
  | .idle => none
  | .stopped => none
  | .setWorker pWorker =>
      some { s with worker := some pWorker, control := .testStatus }
  | .testStatus =>
      if s.status = .running then some { s with control := .idle }
      else some { s with control := .setPrepared }
  | .setPrepared =>
      some { s with status := .prepared, control := .createThread }
  | .createThread =>
      if ok then some s.createThread
      else some { s with control := .createFailed }
  | .createFailed => some { s with status := .stopped, control := .idle }
  | .waitPrepared =>
      if s.status = .prepared then some s else some { s with control := .idle }
  | .probeThread =>
      if ok then some { s with control := .clearRunning }
      else if ∀ t ∈ s.handle, s.hasExited t then
        some { s with control := .stopped }
      else none
  | .clearRunning => some { s with running := false, control := .waitRunning }
  | .waitRunning =>
      if s.status = .running then some s
      else some { s with control := .waitThread }
  | .waitThread => s.waitThread

def setPhase (s : SharedThread) (t : Nat) (x : Pthread) (phase : ExecutePhase) :
    SharedThread :=
  { s with pthread := s.pthread.insert t { x with phase } }

/-- The next access of a thread. -/
def execute (s : SharedThread) (t : Nat) (x : Pthread) (ok : Bool) :
    Option SharedThread :=
  match x.phase with
  | .setRunning => some { s.setPhase t x .setStatus with running := true }
  | .setStatus => some { s.setPhase t x .readWorker with status := .running }
  | .readWorker =>
      match s.worker with
      | none => some (s.setPhase t x .endExecute)
      | some pWorker => some (s.setPhase t x (.initializing pWorker))
  | .initializing pWorker =>
      if ok then some (s.setPhase t x (.testRunning pWorker))
      else some (s.setPhase t x (.uninitializing pWorker))
  | .testRunning pWorker =>
      if s.running then some (s.setPhase t x (.oneAction pWorker))
      else some (s.setPhase t x (.endRun pWorker))
  | .oneAction pWorker =>
      if ok then some (s.setPhase t x (.addCounter pWorker))
      else some (s.setPhase t x (.endRun pWorker))
  | .addCounter pWorker => some (s.setPhase t x (.testRunning pWorker))
  | .endRun pWorker =>
      some { s.setPhase t x (.uninitializing pWorker) with status := .stopped }
  | .uninitializing _ => some (s.setPhase t x .endExecute)
  | .endExecute => some { s.setPhase t x .exited with status := .stopped }
  | .exited => none

def take (s : SharedThread) : ThreadStep → Option SharedThread
  | .startThread pWorker =>
      if s.AtRest then some (s.startThread pWorker) else none
  | .stopThread => if s.AtRest then some s.stopThread else none
  | .control ok => s.proceed ok
  | .execute t ok =>
      match s.pthread.lookup t with
      | some x => s.execute t x ok
      | none => none

end SharedThread

/-- One controller, and the threads that it starts. -/
def threadMachine : Machine SharedThread ThreadStep where
  start s := s = .initial
  step := SharedThread.take

end AiEngine.Ref
