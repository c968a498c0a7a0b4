import LibCxxExt.Threading.LazyHandles

/-! `ordinary_mutex` (`Mutex.h`) and `cond_var` (`ConditionVariable.h`) at work. Any number of
threads call them in any order, under the preconditions of the calls, and share data that is written
with the mutex locked. The operating system provides the mutex and the queue of the condition
variable, every operation may fail, and a waiting thread may be woken without a signal. The lazy
creation of a handle is one step, as `Once` shows that at most one thread runs it. -/

namespace LibCxxExt.Threading.Monitor

open LibCxxExt.ProofKit
open LazyHandles (Call OsResult Outcome)

/-- A failing wait may fail before it blocks, and with `lateWaitFailure` also after it has
re-acquired the mutex. -/
structure Config (D : Type) where
  recursive : Bool
  lateWaitFailure : Bool
  initial : D

/-- The mutex of the operating system, locked `more + 1` times by its owner. -/
inductive OsMutex (Tid : Type)
  | free
  | held (owner : Tid) (more : Nat)

namespace OsMutex

variable {Tid : Type} [DecidableEq Tid]

/-- What `lock` makes of the mutex, unless it blocks. -/
def lock (recursive : Bool) (t : Tid) : OsMutex Tid → Option (OsMutex Tid)
  | free => some (held t 0)
  | held owner more => if recursive ∧ owner = t then some (held owner (more + 1)) else none

def unlock : OsMutex Tid → OsMutex Tid
  | free | held _ 0 => free
  | held owner (more + 1) => held owner more

/-- How often the thread has locked the mutex. -/
def levels (t : Tid) : OsMutex Tid → Nat
  | free => 0
  | held owner more => if owner = t then more + 1 else 0

end OsMutex

structure Shared (Tid D : Type) where
  data : D
  mutex : OsMutex Tid
  mutexReady : Bool
  condVarReady : Bool
  waiters : WaitSet Tid

/-- The calls that lock the mutex. -/
inductive Take
  | lock
  | tryLock
  | acquire
  | tryAcquire

def Take.call : Take → Call
  | lock => .lock
  | tryLock => .tryLock
  | acquire => .acquire
  | tryAcquire => .tryAcquire

/-- Whether the call returns a guard. -/
def Take.guarded : Take → Bool
  | lock | tryLock => true
  | acquire | tryAcquire => false

def Take.tries : Take → Bool
  | tryLock | tryAcquire => true
  | lock | acquire => false

/-- The end of a guard, or `release`. -/
def dropCall (guard : Bool) : Call := if guard then .releaseGuard else .release

/-- `wait_until` with its predicate, or `wait`. -/
def waitCall {D : Type} (until_ : Option (D → Bool)) : Call :=
  if until_.isSome then .waitUntil else .wait

def notifyCall (all : Bool) : Call := if all then .notifyAll else .notifyOne

/-- Where a thread stands, before the step of that name. -/
inductive Point (D : Type)
  | idle
  | initTake (c : Take)
  | take (c : Take)
  | drop (guard : Bool)
  | test (pred : D → Bool)
  | initWait (until_ : Option (D → Bool))
  | wait (until_ : Option (D → Bool))
  | waiting (until_ : Option (D → Bool))
  | initNotify (all : Bool)
  | notify (all : Bool)
  | terminated

/-- A thread has a number of guards, and of successful acquisitions that it has not released. -/
structure Pc (D : Type) where
  guards : Nat
  acquired : Nat
  point : Point D

inductive Event
  | call (c : Call)
  | internal
  | write
  | ret (c : Call) (outcome : Outcome)
  | terminate

namespace Pc

variable {D : Type} (pc : Pc D)

def taken (c : Take) : Pc D :=
  if c.guarded then ⟨pc.guards + 1, pc.acquired, .idle⟩ else ⟨pc.guards, pc.acquired + 1, .idle⟩

def dropped (guard : Bool) : Pc D :=
  if guard then ⟨pc.guards - 1, pc.acquired, .idle⟩ else ⟨pc.guards, pc.acquired - 1, .idle⟩

/-- The thread with what it has, outside of the calls. -/
def back : Pc D := { pc with point := .idle }

def droppable (guard : Bool) : Nat := if guard then pc.guards else pc.acquired

/-- How often the thread has locked the mutex and not given it back, also by waiting. -/
def levels : Nat :=
  match pc.point with
  | .waiting _ => pc.guards + pc.acquired - 1
  | _ => pc.guards + pc.acquired

end Pc

section Steps

variable {Tid D : Type} [DecidableEq Tid]

/-- One atomic step of thread `t`. -/
inductive CallStep (cfg : Config D) (t : Tid) :
    Shared Tid D → Pc D → Event → Shared Tid D → Pc D → Prop
  | callTake {s g m c} : CallStep cfg t s ⟨g, m, .idle⟩ (.call c.call) s ⟨g, m, .initTake c⟩
  | callDrop {s g m} (guard : Bool) : 0 < (⟨g, m, .idle⟩ : Pc D).droppable guard →
    CallStep cfg t s ⟨g, m, .idle⟩ (.call (dropCall guard)) s ⟨g, m, .drop guard⟩
  | callWait {s g m} : 0 < g + m →
    CallStep cfg t s ⟨g, m, .idle⟩ (.call .wait) s ⟨g, m, .initWait none⟩
  | callWaitUntil {s g m pred} : 0 < g + m →
    CallStep cfg t s ⟨g, m, .idle⟩ (.call .waitUntil) s ⟨g, m, .test pred⟩
  | callNotify {s g m} (all : Bool) :
    CallStep cfg t s ⟨g, m, .idle⟩ (.call (notifyCall all)) s ⟨g, m, .initNotify all⟩
  | write {s g m} (data : D) : 0 < g + m →
    CallStep cfg t s ⟨g, m, .idle⟩ .write { s with data } ⟨g, m, .idle⟩
  -- `try_init`.
  | mutexReady {s g m c} : s.mutexReady = true →
    CallStep cfg t s ⟨g, m, .initTake c⟩ .internal s ⟨g, m, .take c⟩
  | mutexCreated {s g m c} : s.mutexReady = false → CallStep cfg t s ⟨g, m, .initTake c⟩ .internal
      { s with mutexReady := true } ⟨g, m, .take c⟩
  | mutexNotCreated {s g m c} : s.mutexReady = false → CallStep cfg t s ⟨g, m, .initTake c⟩
      (.ret c.call (.error .initFailed)) s ⟨g, m, .idle⟩
  | waitReady {s g m u} : s.condVarReady = true →
    CallStep cfg t s ⟨g, m, .initWait u⟩ .internal s ⟨g, m, .wait u⟩
  | waitCreated {s g m u} : s.condVarReady = false → CallStep cfg t s ⟨g, m, .initWait u⟩ .internal
      { s with condVarReady := true } ⟨g, m, .wait u⟩
  | waitNotCreated {s g m u} : s.condVarReady = false → CallStep cfg t s ⟨g, m, .initWait u⟩
      (.ret (waitCall u) (.error .initFailed)) s ⟨g, m, .idle⟩
  | notifyReady {s g m all} : s.condVarReady = true →
    CallStep cfg t s ⟨g, m, .initNotify all⟩ .internal s ⟨g, m, .notify all⟩
  | notifyCreated {s g m all} : s.condVarReady = false → CallStep cfg t s ⟨g, m, .initNotify all⟩
      .internal { s with condVarReady := true } ⟨g, m, .notify all⟩
  | notifyNotCreated {s g m all} : s.condVarReady = false → CallStep cfg t s
      ⟨g, m, .initNotify all⟩ (.ret (notifyCall all) (.error .initFailed)) s ⟨g, m, .idle⟩
  -- `lock`, `try_lock`, `acquire` and `try_acquire`.
  | taken {s g m c mutex} : s.mutex.lock cfg.recursive t = some mutex →
    CallStep cfg t s ⟨g, m, .take c⟩ (.ret c.call (c.call.outcome .ok)) { s with mutex }
      ((⟨g, m, .take c⟩ : Pc D).taken c)
  | busy {s g m c} : c.tries = true → s.mutex.lock cfg.recursive t = none →
    CallStep cfg t s ⟨g, m, .take c⟩ (.ret c.call (c.call.outcome .busy)) s ⟨g, m, .idle⟩
  | notTaken {s g m c} (ret : OsResult) : ret ≠ .ok → (c.tries = true → ret ≠ .busy) →
    CallStep cfg t s ⟨g, m, .take c⟩ (.ret c.call (c.call.outcome ret)) s ⟨g, m, .idle⟩
  -- `release`, also by a guard, which asserts that it succeeds.
  | dropped {s g m guard} : CallStep cfg t s ⟨g, m, .drop guard⟩
      (.ret (dropCall guard) ((dropCall guard).outcome .ok)) { s with mutex := s.mutex.unlock }
      ((⟨g, m, .drop guard⟩ : Pc D).dropped guard)
  | notReleased {s g m} (ret : OsResult) : ret ≠ .ok → CallStep cfg t s ⟨g, m, .drop false⟩
      (.ret .release (Call.release.outcome ret)) s ⟨g, m, .idle⟩
  | guardNotReleased {s g m} :
    CallStep cfg t s ⟨g, m, .drop true⟩ .terminate s ⟨g, m, .terminated⟩
  -- `wait_until` and `wait`.
  | holds {s g m pred} : pred s.data = true →
    CallStep cfg t s ⟨g, m, .test pred⟩ (.ret .waitUntil .success) s ⟨g, m, .idle⟩
  | fails {s g m pred} : pred s.data = false →
    CallStep cfg t s ⟨g, m, .test pred⟩ .internal s ⟨g, m, .initWait (some pred)⟩
  | notWaited {s g m u} (ret : OsResult) : ret ≠ .ok → CallStep cfg t s ⟨g, m, .wait u⟩
      (.ret (waitCall u) ((waitCall u).outcome ret)) s ⟨g, m, .idle⟩
  -- The system gives back one level, so that a mutex locked twice stays locked.
  | block {s g m u} : CallStep cfg t s ⟨g, m, .wait u⟩ .internal
      { s with mutex := s.mutex.unlock, waiters := s.waiters.block t } ⟨g, m, .waiting u⟩
  | spurious {s g m u} : t ∈ s.waiters.blocked → CallStep cfg t s ⟨g, m, .waiting u⟩ .internal
      { s with waiters := s.waiters.wake t } ⟨g, m, .waiting u⟩
  | resumed {s g m mutex} : t ∈ s.waiters.woken → s.mutex.lock cfg.recursive t = some mutex →
    CallStep cfg t s ⟨g, m, .waiting none⟩ (.ret .wait (Call.wait.outcome .ok))
      { s with mutex, waiters := s.waiters.leave t } ⟨g, m, .idle⟩
  | tested {s g m pred mutex} : t ∈ s.waiters.woken → s.mutex.lock cfg.recursive t = some mutex →
    CallStep cfg t s ⟨g, m, .waiting (some pred)⟩ .internal
      { s with mutex, waiters := s.waiters.leave t } ⟨g, m, .test pred⟩
  | resumeFailed {s g m u mutex} (ret : OsResult) : cfg.lateWaitFailure = true → ret ≠ .ok →
    t ∈ s.waiters.woken → s.mutex.lock cfg.recursive t = some mutex →
    CallStep cfg t s ⟨g, m, .waiting u⟩ (.ret (waitCall u) ((waitCall u).outcome ret))
      { s with mutex, waiters := s.waiters.leave t } ⟨g, m, .idle⟩
  -- `notify_one` and `notify_all`.
  | notifyNobody {s g m} : s.waiters.blocked = ∅ → CallStep cfg t s ⟨g, m, .notify false⟩
      (.ret .notifyOne (Call.notifyOne.outcome .ok)) s ⟨g, m, .idle⟩
  | notifyOne {s g m u} : u ∈ s.waiters.blocked → CallStep cfg t s ⟨g, m, .notify false⟩
      (.ret .notifyOne (Call.notifyOne.outcome .ok)) { s with waiters := s.waiters.wake u }
      ⟨g, m, .idle⟩
  | notifyAll {s g m} : CallStep cfg t s ⟨g, m, .notify true⟩
      (.ret .notifyAll (Call.notifyAll.outcome .ok)) { s with waiters := s.waiters.wakeAll }
      ⟨g, m, .idle⟩
  | notNotified {s g m all} (ret : OsResult) : ret ≠ .ok → CallStep cfg t s ⟨g, m, .notify all⟩
      (.ret (notifyCall all) ((notifyCall all).outcome ret)) s ⟨g, m, .idle⟩

/-- Threads that share data, a fresh mutex and a fresh condition variable. -/
def program (Tid : Type) [DecidableEq Tid] (cfg : Config D) :
    Program Tid (Shared Tid D) (Pc D) Event where
  shared := ⟨cfg.initial, .free, false, false, .empty⟩
  start := ⟨0, 0, .idle⟩
  step := CallStep cfg

end Steps

end LibCxxExt.Threading.Monitor
