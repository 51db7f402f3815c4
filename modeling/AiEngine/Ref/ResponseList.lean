import AiEngine.Lib.Machine

/-!
# The responses that wait for a client

`ClientListenerHandler::AddCallbackRecord` and `FetchCallbackRecord`, with the
event of `event.cpp` that the fetching thread waits for, access by access. Any
number of threads add responses, and one worker fetches them.

Who has the mutex is where it is in its section; a thread that adds has no
other state. `Event::Wait` returns what the flag is when it returns, signalled
or not.
-/

namespace AiEngine.Ref

open AiEngine.Lib

/-- What a thread in `AddCallbackRecord` does next. -/
inductive AddPhase (ρ : Type) where
  | pushBack (response : ρ)
  | signal
  | unlock
  deriving DecidableEq, Repr

/-- What the worker in a section of `FetchCallbackRecord` does next. -/
inductive FetchPhase (ρ : Type) where
  | testEmpty
  | front
  | reset (response : ρ)
  | unlock (response : Option ρ)
  deriving DecidableEq, Repr

/-- `mutex_`, with what its owner does next. -/
inductive ListMutex (ρ : Type) where
  | free
  | adding (thread : Nat) (phase : AddPhase ρ)
  | fetching (phase : FetchPhase ρ)
  deriving DecidableEq, Repr

/-- Where the worker is when it is not in a section. -/
inductive FetchWorker where
  | idle
  | inSection
  | wait
  | testEmpty
  | lock
  deriving DecidableEq, Repr

/-- `responses_`, `event_` and `mutex_`, with the responses that were added
and those that were fetched, and whether `front()` was taken on an empty
list. -/
structure ResponseList (ρ : Type) where
  responses : List ρ
  event : Bool
  mutex : ListMutex ρ
  worker : FetchWorker
  added : List ρ
  fetched : List ρ
  frontOnEmpty : Bool
  deriving DecidableEq, Repr

inductive ResponseStep (ρ : Type) where
  | addCallbackRecord (thread : Nat) (response : ρ)
  | adder
  | fetchCallbackRecord
  | worker
  deriving DecidableEq, Repr

namespace ResponseList

variable {ρ : Type}

/-- `ClientListenerHandler()`. -/
def new : ResponseList ρ where
  responses := []
  event := false
  mutex := .free
  worker := .idle
  added := []
  fetched := []
  frontOnEmpty := false

/-- The next access of `AddCallbackRecord`. -/
def addRecord (s : ResponseList ρ) (thread : Nat) : AddPhase ρ → ResponseList ρ
  | .pushBack response =>
      { s with
        responses := s.responses ++ [response]
        added := s.added ++ [response]
        mutex := .adding thread
          (if s.responses.isEmpty then .signal else .unlock) }
  | .signal => { s with event := true, mutex := .adding thread .unlock }
  | .unlock => { s with mutex := .free }

/-- The next access of a section of `FetchCallbackRecord`. A section that
leaves with no response is the first one, and the worker goes on to wait. -/
def fetchRecord (s : ResponseList ρ) : FetchPhase ρ → ResponseList ρ
  | .testEmpty =>
      { s with
        mutex := .fetching
          (if s.responses.isEmpty then .unlock none else .front) }
  | .front =>
      match s.responses with
      | [] => { s with mutex := .free, worker := .idle, frontOnEmpty := true }
      | response :: responses =>
          { s with responses, mutex := .fetching (.reset response) }
  | .reset response =>
      { s with
        event := if s.responses.isEmpty then false else s.event
        mutex := .fetching (.unlock (some response)) }
  | .unlock none => { s with mutex := .free, worker := .wait }
  | .unlock (some response) =>
      { s with
        mutex := .free
        worker := .idle
        fetched := s.fetched ++ [response] }

/-- The next step of the worker, where it is not blocked. -/
def runFetch (s : ResponseList ρ) : Option (ResponseList ρ) :=
  match s.worker with
  | .idle => none
  | .inSection =>
      match s.mutex with
      | .fetching phase => some (s.fetchRecord phase)
      | _ => none
  | .wait => some { s with worker := if s.event then .testEmpty else .idle }
  | .testEmpty =>
      some { s with worker := if s.responses.isEmpty then .idle else .lock }
  | .lock =>
      match s.mutex with
      | .free => some { s with mutex := .fetching .front, worker := .inSection }
      | _ => none

def take (s : ResponseList ρ) : ResponseStep ρ → Option (ResponseList ρ)
  | .addCallbackRecord thread response =>
      match s.mutex with
      | .free => some { s with mutex := .adding thread (.pushBack response) }
      | _ => none
  | .adder =>
      match s.mutex with
      | .adding thread phase => some (s.addRecord thread phase)
      | _ => none
  | .fetchCallbackRecord =>
      match s.worker, s.mutex with
      | .idle, .free =>
          some { s with mutex := .fetching .testEmpty, worker := .inSection }
      | _, _ => none
  | .worker => s.runFetch

end ResponseList

/-- Threads that add responses and a worker that fetches them. -/
def responseMachine (ρ : Type) : Machine (ResponseList ρ) (ResponseStep ρ) where
  start := fun s => s = .new
  step := ResponseList.take

end AiEngine.Ref
