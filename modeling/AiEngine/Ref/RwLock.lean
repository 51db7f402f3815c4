import AiEngine.Lib.Machine
import AiEngine.Lib.Table

/-!
# The readers-writer lock

`rw_lock.cpp`. A member function does everything with the mutex held, and
lets go of it when it returns and while it is in a wait. A step of the machine
is what one thread does from getting the mutex to letting go of it, or a
wake-up that nobody asked for.

A condition variable is the set of the threads that are blocked in a wait on
it. A thread that has been woken is in no such set any more; it still has to
get the mutex back and to find its predicate true. The thread that
`notify_one` reaches is part of the step.
-/

namespace AiEngine.Ref

open AiEngine.Lib

/-- `RwLock`. -/
structure RwLock where
  readCnt : Nat
  writeCnt : Nat
  writeFlag : Bool
  condWrite : Finset Nat
  condRead : Finset Nat

/-- `notify_one()`, which reaches any of the blocked threads, and none only
where none is blocked. -/
def notifyOne (cond : Finset Nat) : Option Nat → Option (Finset Nat)
  | some t => if t ∈ cond then some (cond.erase t) else none
  | none => if cond = ∅ then some ∅ else none

namespace RwLock

/-- `RwLock()`. -/
def initial : RwLock where
  readCnt := 0
  writeCnt := 0
  writeFlag := false
  condWrite := ∅
  condRead := ∅

/-- `LockRead()` from the test of the predicate on: whether the thread returns
with the lock, or is blocked. -/
def testRead (l : RwLock) (t : Nat) : Bool × RwLock :=
  if l.writeCnt = 0 then (true, { l with readCnt := l.readCnt + 1 })
  else (false, { l with condRead := insert t l.condRead })

def lockRead (l : RwLock) (t : Nat) : Bool × RwLock := l.testRead t

/-- `LockWrite()` from the test of the predicate on. -/
def testWrite (l : RwLock) (t : Nat) : Bool × RwLock :=
  if l.readCnt = 0 ∧ l.writeFlag = false then
    (true, { l with writeFlag := true })
  else (false, { l with condWrite := insert t l.condWrite })

/-- A writer counts itself before it waits. -/
def lockWrite (l : RwLock) (t : Nat) : Bool × RwLock :=
  { l with writeCnt := l.writeCnt + 1 }.testWrite t

def unLockRead (l : RwLock) (notified : Option Nat) : Option RwLock :=
  let l := { l with readCnt := l.readCnt - 1 }
  if l.readCnt = 0 ∧ 0 < l.writeCnt then
    (notifyOne l.condWrite notified).map fun condWrite =>
      { l with condWrite }
  else some l

/-- The flag is cleared after the notification, with the mutex still held. -/
def unLockWrite (l : RwLock) (notified : Option Nat) : Option RwLock :=
  let l := { l with writeCnt := l.writeCnt - 1 }
  let woken :=
    if l.writeCnt = 0 then some { l with condRead := ∅ }
    else (notifyOne l.condWrite notified).map fun condWrite =>
      { l with condWrite }
  woken.map fun l => { l with writeFlag := false }

end RwLock

/-! ## The threads

What the threads themselves know of the lock: which of its functions they are
in, and whether they have returned from it with the lock. The lock has no part
in this.
-/

/-- What a thread has come to that is not done with the lock. -/
inductive LockPhase where
  | waitRead
  | reading
  | waitWrite
  | writing
  deriving DecidableEq, Repr

/-- A lock, and the threads that are not done with it. -/
structure LockUse where
  lock : RwLock
  thread : Table Nat LockPhase

inductive LockStep where
  | lockRead (t : Nat)
  | lockWrite (t : Nat)
  | unLockRead (t : Nat) (notified : Option Nat)
  | unLockWrite (t : Nat) (notified : Option Nat)
  /-- A wake-up without a notification. -/
  | wakeRead (t : Nat)
  | wakeWrite (t : Nat)
  /-- A thread that has been woken has the mutex again. -/
  | resume (t : Nat)
  deriving DecidableEq, Repr

namespace LockUse

/-- The thread is where `LockRead()` has left it. -/
def reads (s : LockUse) (t : Nat) (r : Bool × RwLock) : LockUse where
  lock := r.2
  thread := s.thread.insert t (if r.1 then .reading else .waitRead)

/-- The thread is where `LockWrite()` has left it. -/
def writes (s : LockUse) (t : Nat) (r : Bool × RwLock) : LockUse where
  lock := r.2
  thread := s.thread.insert t (if r.1 then .writing else .waitWrite)

/-- The thread is done with the lock. -/
def leaves (s : LockUse) (t : Nat) (r : Option RwLock) : Option LockUse :=
  r.map fun lock => ⟨lock, s.thread.erase t⟩

/-- A thread locks when it is done with the lock, and unlocks what it has
locked. -/
def take (s : LockUse) : LockStep → Option LockUse
  | .lockRead t =>
      if s.thread.lookup t = none then some (s.reads t (s.lock.lockRead t))
      else none
  | .lockWrite t =>
      if s.thread.lookup t = none then some (s.writes t (s.lock.lockWrite t))
      else none
  | .unLockRead t notified =>
      if s.thread.lookup t = some .reading then
        s.leaves t (s.lock.unLockRead notified)
      else none
  | .unLockWrite t notified =>
      if s.thread.lookup t = some .writing then
        s.leaves t (s.lock.unLockWrite notified)
      else none
  | .wakeRead t =>
      if t ∈ s.lock.condRead then
        some { s with lock := { s.lock with
          condRead := s.lock.condRead.erase t } }
      else none
  | .wakeWrite t =>
      if t ∈ s.lock.condWrite then
        some { s with lock := { s.lock with
          condWrite := s.lock.condWrite.erase t } }
      else none
  | .resume t =>
      match s.thread.lookup t with
      | some .waitRead =>
          if t ∈ s.lock.condRead then none
          else some (s.reads t (s.lock.testRead t))
      | some .waitWrite =>
          if t ∈ s.lock.condWrite then none
          else some (s.writes t (s.lock.testWrite t))
      | some .reading => none
      | some .writing => none
      | none => none

end LockUse

/-- Any number of threads on one lock. -/
def lockMachine : Machine LockUse LockStep where
  start s := s = ⟨.initial, ∅⟩
  step := LockUse.take

end AiEngine.Ref
