import AiEngine.Lib.Machine
import AiEngine.Lib.Monitor
import AiEngine.Ref.Platform

/-!
# Semaphores and events

`semaphore.cpp` and `event.cpp`, for any number of threads. What a call does
under the lock is one step. The wait of the condition variable is not one: a
thread looks at the count or the flag whenever it has the lock, and sleeps in
between. `Event::Signal` notifies after it has given the lock back, so that is
a step of its own, and other threads come in between.
-/

namespace AiEngine.Ref

open AiEngine.Lib

/-- A call of `Wait` that has returned. -/
structure WaitReturn (τ : Type) where
  thread : τ
  timed : Bool
  value : Bool
  deriving DecidableEq, Repr

/-- `Wait(milliSeconds)` of both, which is without a limit unless the time is
positive. -/
def isTimed (milliSeconds : Int) : Bool := 0 < milliSeconds

variable {τ : Type} [DecidableEq τ]

/-- What a look leaves of the calls that have returned. -/
def afterLook (m : Monitor τ) (t : τ) (returned : List (WaitReturn τ)) :
    Monitor.Look → List (WaitReturn τ)
  | .returned value => returned ++ [⟨t, t ∈ m.timed, value⟩]
  | .sleeps => returned

/-- `Semaphore`, its threads, and what its calls have done. -/
structure Semaphore (τ : Type) [DecidableEq τ] where
  count : UInt32
  threads : Monitor τ
  returned : List (WaitReturn τ)
  signals : Nat

inductive SemaphoreStep (τ : Type) where
  | wait (t : τ) (milliSeconds : Int)
  /-- A thread that waits has the lock. -/
  | look (t : τ)
  | stir (t : τ)
  | timeUp (t : τ)
  /-- `Signal`, with the thread that is notified. -/
  | signal (notified : Option τ)

namespace Semaphore

/-- `ISemaphore::MakeShared(count)`. -/
def makeShared (count : UInt32) : Semaphore τ := ⟨count, .idle, [], 0⟩

/-- A look at the count, which takes a unit if it lets the thread through. -/
def look (s : Semaphore τ) (t : τ) : Option (Semaphore τ) :=
  match s.threads.look t (0 < s.count) with
  | none => none
  | some (l, threads) => some { s with
      threads
      count := if l = .returned true then s.count - 1 else s.count
      returned := afterLook s.threads t s.returned l }

/-- `Signal`. -/
def signal (s : Semaphore τ) (notified : Option τ) : Option (Semaphore τ) :=
  match s.threads.notifyOne notified with
  | none => none
  | some threads => some { s with
      threads
      count := s.count + 1
      signals := s.signals + 1 }

def step (s : Semaphore τ) : SemaphoreStep τ → Option (Semaphore τ)
  | .wait t milliSeconds =>
      (s.threads.enter t (isTimed milliSeconds)).map fun threads =>
        { s with threads }
  | .look t => s.look t
  | .stir t => (s.threads.stir t).map fun threads => { s with threads }
  | .timeUp t => (s.threads.expire t).map fun threads => { s with threads }
  | .signal notified => s.signal notified

end Semaphore

def semaphoreMachine (τ : Type) [DecidableEq τ] (count : UInt32) :
    Machine (Semaphore τ) (SemaphoreStep τ) where
  start s := s = .makeShared count
  step := Semaphore.step

/-- `Event`, its threads, the calls of `Signal` that have yet to notify, and
how many calls of `Signal` and of `Reset` have changed the flag. -/
structure Event (τ : Type) [DecidableEq τ] where
  flag : Bool
  threads : Monitor τ
  notifying : Nat
  returned : List (WaitReturn τ)
  signalled : Nat
  reset : Nat

inductive EventStep (τ : Type) where
  | wait (t : τ) (milliSeconds : Int)
  | look (t : τ)
  | stir (t : τ)
  | timeUp (t : τ)
  /-- `Signal` up to where it gives the lock back. -/
  | signal
  /-- What is left of a call of `Signal`. -/
  | notifyAll
  | reset

namespace Event

/-- `IEvent::MakeShared()`. -/
def makeShared : Event τ := ⟨false, .idle, 0, [], 0, 0⟩

def look (e : Event τ) (t : τ) : Option (Event τ) :=
  match e.threads.look t e.flag with
  | none => none
  | some (l, threads) => some { e with
      threads
      returned := afterLook e.threads t e.returned l }

/-- `Signal` under the lock, with what it returns. -/
def signal (e : Event τ) : Bool × Event τ :=
  (!e.flag, { e with
    flag := true
    notifying := e.notifying + 1
    signalled := e.signalled + (!e.flag).toNat })

/-- `Reset`, with what it returns. -/
def doReset (e : Event τ) : Bool × Event τ :=
  (e.flag, { e with flag := false, reset := e.reset + e.flag.toNat })

def step (e : Event τ) : EventStep τ → Option (Event τ)
  | .wait t milliSeconds =>
      (e.threads.enter t (isTimed milliSeconds)).map fun threads =>
        { e with threads }
  | .look t => e.look t
  | .stir t => (e.threads.stir t).map fun threads => { e with threads }
  | .timeUp t => (e.threads.expire t).map fun threads => { e with threads }
  | .signal => some e.signal.2
  | .notifyAll =>
      if e.notifying = 0 then none
      else some { e with
        threads := e.threads.notifyAll
        notifying := e.notifying - 1 }
  | .reset => some e.doReset.2

end Event

def eventMachine (τ : Type) [DecidableEq τ] :
    Machine (Event τ) (EventStep τ) where
  start e := e = .makeShared
  step := Event.step

end AiEngine.Ref
