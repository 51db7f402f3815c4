import AiEngine.Lib.Machine
import AiEngine.Ref.Platform

/-!
# System V shared memory, and the key search on top of it

`aie_ipc.cpp` keeps large payloads in shared memory segments. This file has
the system calls it makes, as far as it depends on them: a segment has an
identifier, a key that no other segment has, its bytes, an owner and a count
of attachments, and a segment that was removed lives on, without its key,
until the last attachment is gone.

Every call that can fail asks an oracle, which answers by the number of
calls made before. The calls are kept in order, so that a run can be asked
afterwards what it did.
-/

namespace AiEngine.Ref

open AiEngine.Lib

/-- A call that can fail for reasons outside the program. -/
inductive SysCall where
  | shmget (key : Int)
  | shmat (id : Int)
  | shmdt (id : Int)
  | shmStat (id : Int)
  | shmSet (id : Int)
  | shmRmid (id : Int)
  | malloc
  | memcpy
  deriving DecidableEq, Repr

/-- A shared memory segment. A segment marked for removal has no key. -/
structure Segment where
  id : Int
  key : Option Int
  bytes : List UInt8
  uid : UInt32
  attached : Nat
  deriving DecidableEq, Repr

/-- The host both processes run on, and `g_shmKey` of the sending one. -/
structure Host where
  segments : List Segment
  shmKey : Int
  calls : List SysCall
  deriving DecidableEq, Repr

/-- `SHM_KEY_START`. -/
def shmKeyStart : Int := 200000

/-- `SHM_KEY_END`. -/
def shmKeyEnd : Int := 300000

namespace Host

/-- The segment with this identifier. -/
def seg (h : Host) (id : Int) : Option Segment :=
  h.segments.find? fun s => s.id = id

def keyInUse (h : Host) (key : Int) : Bool :=
  h.segments.any fun s => s.key = some key

def update (h : Host) (id : Int) (f : Segment → Segment) : Host :=
  { h with segments := h.segments.map fun s => if s.id = id then f s else s }

def remove (h : Host) (id : Int) : Host :=
  { h with segments := h.segments.filter fun s => s.id ≠ id }

/-- The smallest identifier no segment has. -/
def freshId (h : Host) : Int :=
  match (List.range (h.segments.length + 1)).find? fun (n : Nat) =>
    h.segments.all fun s => s.id ≠ (n : Int) with
  | some n => (n : Int)
  | none => 0

end Host

section

variable (served : Nat → Bool)

/-- Make a call: whether it is served, and the host that remembers it. -/
def Host.call (h : Host) (c : SysCall) : Bool × Host :=
  (served h.calls.length, { h with calls := h.calls ++ [c] })

/-- What `shmget` with `IPC_CREAT | IPC_EXCL` answers: an identifier,
`EEXIST`, or another error. -/
inductive ShmGet where
  | id (shmId : Int)
  | exists
  | error
  deriving DecidableEq, Repr

def Host.shmget (h : Host) (key : Int) (size : Nat) : ShmGet × Host :=
  match h.call served (.shmget key) with
  | (false, h) => (.error, h)
  | (true, h) =>
      if h.keyInUse key then (.exists, h)
      else
        (.id h.freshId,
          { h with segments :=
            ⟨h.freshId, some key, List.replicate size 0, 0, 0⟩ ::
              h.segments })

/-- `shmat`: whether the segment could be attached. -/
def Host.shmat (h : Host) (id : Int) : Bool × Host :=
  match h.call served (.shmat id) with
  | (false, h) => (false, h)
  | (true, h) =>
      if (h.seg id).isSome then
        (true, h.update id fun s => { s with attached := s.attached + 1 })
      else (false, h)

/-- `shmdt`. The last one of a segment without a key takes it along. -/
def Host.shmdt (h : Host) (id : Int) : Bool × Host :=
  match h.call served (.shmdt id) with
  | (false, h) => (false, h)
  | (true, h) =>
      match h.seg id with
      | none => (false, h)
      | some s =>
          if s.key = none ∧ s.attached ≤ 1 then (true, h.remove id)
          else
            (true, h.update id fun s => { s with attached := s.attached - 1 })

/-- `shmctl(IPC_STAT)`. -/
def Host.shmStat (h : Host) (id : Int) : Bool × Host :=
  match h.call served (.shmStat id) with
  | (false, h) => (false, h)
  | (true, h) => ((h.seg id).isSome, h)

/-- `shmctl(IPC_SET)` of the owner. -/
def Host.shmSetUid (h : Host) (id : Int) (uid : UInt32) : Bool × Host :=
  match h.call served (.shmSet id) with
  | (false, h) => (false, h)
  | (true, h) =>
      if (h.seg id).isSome then (true, h.update id ({ · with uid }))
      else (false, h)

/-- `shmctl(IPC_RMID)`: remove the segment, or mark it for removal. -/
def Host.shmRmid (h : Host) (id : Int) : Host :=
  match h.call served (.shmRmid id) with
  | (false, h) => h
  | (true, h) =>
      match h.seg id with
      | none => h
      | some s =>
          if s.attached = 0 then h.remove id
          else h.update id ({ · with key := none })

/-- `ReleaseShmId`. -/
def releaseShmId (h : Host) (shmId : Int) : Host :=
  if shmId = -1 then h else h.shmRmid served shmId

/-- Move `g_shmKey` to the next key of the range. -/
def Host.nextKey (h : Host) : Host :=
  { h with shmKey :=
      if h.shmKey + 1 ≥ shmKeyEnd then shmKeyStart else h.shmKey + 1 }

/-- The loop of `AcquireShmSegment`, with this many attempts left. -/
def acquireLoop (size : Nat) : Nat → Host → Int × Host
  | 0, h => (-1, h)
  | attempts + 1, h =>
      match h.shmget served h.shmKey size with
      | (.id shmId, h) => (shmId, h.nextKey)
      | (.exists, h) => acquireLoop size attempts h.nextKey
      | (.error, h) => (-1, h)

/-- `AcquireShmSegment`. -/
def acquireShmSegment (h : Host) (size : Nat) : Int × Host :=
  acquireLoop served size (shmKeyEnd - shmKeyStart).toNat h

/-- A host, and the identifiers that `AcquireShmSegment` returned and whose
segments still exist. -/
structure ShmSystem where
  host : Host
  held : List Int
  deriving DecidableEq, Repr

/-- What happens on a host: the process acquires a segment, or any process
makes one of the system's calls. -/
inductive ShmStep where
  | acquireShmSegment (size : Nat)
  | shmget (key : Int) (size : Nat)
  | shmat (id : Int)
  | shmdt (id : Int)
  | shmSetUid (id : Int) (uid : UInt32)
  | shmRmid (id : Int)
  deriving DecidableEq, Repr

namespace ShmSystem

/-- The host after a call. What no longer exists is no longer held. -/
def onHost (s : ShmSystem) (host : Host) : ShmSystem :=
  ⟨host, s.held.filter fun id => (host.seg id).isSome⟩

def take (s : ShmSystem) : ShmStep → ShmSystem
  | .acquireShmSegment size =>
      match acquireShmSegment served s.host size with
      | (shmId, host) =>
          if shmId = -1 then s.onHost host
          else { s.onHost host with held := shmId :: (s.onHost host).held }
  | .shmget key size => s.onHost (s.host.shmget served key size).2
  | .shmat id => s.onHost (s.host.shmat served id).2
  | .shmdt id => s.onHost (s.host.shmdt served id).2
  | .shmSetUid id uid => s.onHost (s.host.shmSetUid served id uid).2
  | .shmRmid id => s.onHost (s.host.shmRmid served id)

end ShmSystem

/-- A process on any host, with `g_shmKey` in its range. -/
def shmMachine : Machine ShmSystem ShmStep where
  start := fun s =>
    s.held = [] ∧ shmKeyStart ≤ s.host.shmKey ∧ s.host.shmKey < shmKeyEnd
  step := fun s i => some (s.take served i)

end

end AiEngine.Ref
