import AiEngine.Ref.Platform

/-!
# Requests, responses and tasks

`request.cpp`, `response.cpp` and `task.h`. A request is what a client asks a
plugin, a response what the plugin answers; a task is a request on its way
through a queue, together with the handler that will process it.

The two handlers of `i_handler.h` are told apart by their kind. A pointer to
one that is cast to the other still leads to the object it was made for.
-/

namespace AiEngine.Ref

/-- `Request`. -/
structure Request where
  innerSequenceId : Int
  requestId : Int32
  operationId : Int32
  clientUid : UInt32
  transactionId : Int64
  algoPluginType : Int32
  msg : DataInfo
  deriving DecidableEq, Repr

/-- `Response`, without the description nobody sets. -/
structure Response where
  requestId : Int32
  innerSequenceId : Int
  transactionId : Int64
  retCode : Int
  algoPluginType : Int32
  clientUid : UInt32
  result : DataInfo
  deriving DecidableEq, Repr

/-- `IResponse::Create(request)`: the ids are the request's. -/
def Response.create (request : Request) : Response where
  requestId := request.requestId
  innerSequenceId := request.innerSequenceId
  transactionId := request.transactionId
  retCode := Retcode.success
  algoPluginType := request.algoPluginType
  clientUid := request.clientUid
  result := ⟨.null, 0⟩

/-- The classes behind `IHandler`. -/
inductive MsgHandler where
  | sync
  | async
  deriving DecidableEq, Repr

/-- `Task`. The notifier is the one of the caller that waits, numbered. -/
structure Task where
  handler : Option MsgHandler
  request : Option Request
  notifier : Option Nat
  deriving DecidableEq, Repr

end AiEngine.Ref
