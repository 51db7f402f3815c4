import AiEngine.Ref.ClientFactory

/-!
# The three tables, a section at a time

`g_saServerAdapters`, `futures_` and `sessionInfos_` get their entries in two
steps: one section with the lock looks for an id, and another one enters it.
The connecting clients have a lock around both. For the other two tables any
number of calls can be between their sections.

Each time an id is looked for it is noted whether none was left, and how many
entries the table had.
-/

namespace AiEngine.Ref

open AiEngine.Lib

/-- `AllocateClientAdapter`. -/
def Service.allocateClientAdapter (s : Service) (newAdapter : Bool) :
    Int32 × Service :=
  if ¬ newAdapter then (invalidClientId, s)
  else
    let id := Int32.ofInt s.clientIdAtomic
    (id, { s with adapters := s.adapters.insert id ⟨id, []⟩ })

/-- `GenerateClient` is its two sections. -/
theorem Service.generateClient_sections (s : Service) (env : ServiceEnv) :
    s.generateClient env =
      if s.findValidClientId.1 = invalidClientId.toInt then
        (invalidClientId, s.findValidClientId.2)
      else s.findValidClientId.2.allocateClientAdapter env.newAdapter := rfl

/-- What an allocator said of a table. -/
structure AllocReport where
  capacity : Nat
  size : Nat
  exhausted : Bool
  deriving DecidableEq, Repr

/-- The tables, and the calls that have an id and have not entered it. -/
structure TableSystem where
  service : Service
  /-- A client has an id, and `g_connectMutex`. -/
  connecting : Bool
  factory : FutureFactory
  creating : List Int
  client : ClientFactory
  initiating : List Int32
  reports : List AllocReport

/-- A section of one of the calls. -/
inductive TableStep where
  | findValidClientId
  | allocateClientAdapter (newAdapter : Bool)
  | removeAdapter (env : ServiceEnv) (clientId : Int32)
  | findSequenceId
  | addFuture (sequenceId : Int) (request : Nat) (transactionId : Int64)
  | futureFailed (sequenceId : Int)
  | deleteFuture (sequenceId : Int)
  | generateSessionId
  | addSessionInfo (clientInfo : ClientInfo) (algorithmInfo : AlgorithmInfo)
  | eraseSessionInfo (sessionId : Int32)

namespace TableSystem

def initial : TableSystem where
  service := .initial
  connecting := false
  factory := .initial
  creating := []
  client := .initial
  initiating := []
  reports := []

def report (s : TableSystem) (capacity size : Nat) (exhausted : Bool) :
    TableSystem :=
  { s with reports := s.reports ++ [⟨capacity, size, exhausted⟩] }

def findValidClientId (s : TableSystem) : TableSystem :=
  match s.service.findValidClientId with
  | (clientId, service) =>
      let exhausted := clientId == invalidClientId.toInt
      { s with service, connecting := !exhausted }.report maxNumClients
        s.service.adapters.keys.card exhausted

def findSequenceId (s : TableSystem) : TableSystem :=
  match s.factory.findSequenceId with
  | (sequenceId, factory) =>
      let exhausted := sequenceId == invalidSequenceId
      { s with
        factory
        creating :=
          if exhausted then s.creating else sequenceId :: s.creating }.report
        maxNumFutures s.factory.futures.keys.card exhausted

/-- `ClientInit` enters its session under whatever id it got. -/
def generateSessionId (s : TableSystem) : TableSystem :=
  match s.client.generateSessionId with
  | (sessionId, client) =>
      { s with client, initiating := sessionId :: s.initiating }.report
        maximumNumberOfSession s.client.sessionInfos.keys.card
        (sessionId == invalidSessionId)

def take (s : TableSystem) : TableStep → Option TableSystem
  | .findValidClientId =>
      if s.connecting then none else some s.findValidClientId
  | .allocateClientAdapter newAdapter =>
      if s.connecting then
        some { s with
          service := (s.service.allocateClientAdapter newAdapter).2
          connecting := false }
      else none
  | .removeAdapter env clientId =>
      some { s with service := (s.service.removeAdapter env clientId).2 }
  | .findSequenceId => some s.findSequenceId
  | .addFuture sequenceId request transactionId =>
      if sequenceId ∈ s.creating then
        some { s with
          factory := s.factory.addFuture sequenceId request transactionId
          creating := s.creating.erase sequenceId }
      else none
  | .futureFailed sequenceId =>
      some { s with creating := s.creating.erase sequenceId }
  | .deleteFuture sequenceId =>
      some { s with factory := s.factory.deleteFuture sequenceId }
  | .generateSessionId => some s.generateSessionId
  | .addSessionInfo clientInfo algorithmInfo =>
      if clientInfo.sessionId ∈ s.initiating then
        some { s with
          client := (s.client.addSessionInfo clientInfo algorithmInfo).2
          initiating := s.initiating.erase clientInfo.sessionId }
      else none
  | .eraseSessionInfo sessionId =>
      some { s with client := (s.client.eraseSessionInfo sessionId).2 }

end TableSystem

def tableMachine : Machine TableSystem TableStep where
  start := fun s => s = .initial
  step := TableSystem.take

end AiEngine.Ref
