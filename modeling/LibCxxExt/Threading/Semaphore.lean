import LibCxxExt.ProofKit.CInteger
import LibCxxExt.ProofKit.Interleaving

/-! `sys::ordinary_semaphore` (`SemaphoreEx.h`) with the parts of `ordinary_mutex` and `cond_var`
that it calls. A thread moves in atomic steps, every call of the operating system may fail, and a
waiting thread may be woken without a signal. The lazy creation of a handle is one step, as
`Once` shows that at most one thread runs it and that it succeeds once. -/

namespace LibCxxExt.Threading

open LibCxxExt.ProofKit

/-- `threading_error`, for the errors that a semaphore reports. -/
inductive ThreadingError
  | initFailed
  | operationFailed
  | overflow
deriving DecidableEq

namespace Semaphore

/-- A semaphore and the operating system below it. A failing wait may fail before it blocks, and
with `lateWaitFailure` also after it has re-acquired the mutex. -/
structure Config where
  T : IntTy
  initial : CInt T
  nonneg : 0 ≤ initial.val
  lateWaitFailure : Bool

/-- `acquire`, also as the part of `access` that a guard is made of, and `release`, which the
guard's destructor calls. -/
inductive Call
  | acquire (guarded : Bool)
  | release
deriving DecidableEq

inductive Outcome
  | ok
  | error (e : ThreadingError)
deriving DecidableEq

/-- The fields of the semaphore, with the owner of its mutex and the threads in its condition
variable. -/
structure Shared (Tid : Type) (T : IntTy) where
  counter : CInt T
  mutex : Option Tid
  mutexReady : Bool
  condVarReady : Bool
  waiters : WaitSet Tid

/-- Where a thread stands, before the step of that name. -/
inductive Pc
  | idle
  | initMutex (call : Call)
  | lock (call : Call)
  | lockFailed (call : Call) (e : ThreadingError)
  | test (guarded : Bool)
  | decrement (guarded : Bool)
  | initWait (guarded : Bool)
  | wait (guarded : Bool)
  | waiting (guarded : Bool)
  | check
  | increment
  | initNotify
  | notify
  | rollback (e : ThreadingError)
  | unlock (call : Call) (outcome : Outcome)
  | makeGuard (outcome : Outcome)
deriving DecidableEq

inductive Event
  | call (call : Call)
  | internal
  | increment
  | decrement
  | rollback
  | ret (call : Call) (outcome : Outcome)
  | accessed (outcome : Outcome)
deriving DecidableEq

def Call.entry : Call → Pc
  | acquire guarded => .test guarded
  | release => .check

def Call.after : Call → Outcome → Pc
  | acquire true, outcome => .makeGuard outcome
  | _, _ => .idle

variable {Tid : Type} [DecidableEq Tid]

/-- One atomic step of thread `t` in one of the calls. -/
inductive CallStep (cfg : Config) (t : Tid) :
    Shared Tid cfg.T → Pc → Event → Shared Tid cfg.T → Pc → Prop
  | call {s c} : CallStep cfg t s .idle (.call c) s (.initMutex c)
  -- `ordinary_mutex::lock`.
  | mutexReady {s call} : s.mutexReady = true →
    CallStep cfg t s (.initMutex call) .internal s (.lock call)
  | mutexCreated {s call} : s.mutexReady = false →
    CallStep cfg t s (.initMutex call) .internal { s with mutexReady := true } (.lock call)
  | mutexNotCreated {s call} : s.mutexReady = false →
    CallStep cfg t s (.initMutex call) .internal s (.lockFailed call .initFailed)
  | locked {s call} : s.mutex = none →
    CallStep cfg t s (.lock call) .internal { s with mutex := some t } call.entry
  | notLocked {s call} :
    CallStep cfg t s (.lock call) .internal s (.lockFailed call .operationFailed)
  | lockFailed {s call e} :
    CallStep cfg t s (.lockFailed call e) (.ret call (.error e)) s (call.after (.error e))
  -- `acquire`, with `cond_var::wait_until` and `cond_var::wait`.
  | permit {s guarded} : 0 < s.counter.val →
    CallStep cfg t s (.test guarded) .internal s (.decrement guarded)
  | noPermit {s guarded} : ¬ 0 < s.counter.val →
    CallStep cfg t s (.test guarded) .internal s (.initWait guarded)
  | decrement {s guarded} : CallStep cfg t s (.decrement guarded) .decrement
      { s with counter := .ofInt cfg.T (s.counter.val - 1) } (.unlock (.acquire guarded) .ok)
  | waitReady {s guarded} : s.condVarReady = true →
    CallStep cfg t s (.initWait guarded) .internal s (.wait guarded)
  | waitCreated {s guarded} : s.condVarReady = false →
    CallStep cfg t s (.initWait guarded) .internal { s with condVarReady := true } (.wait guarded)
  | waitNotCreated {s guarded} : s.condVarReady = false →
    CallStep cfg t s (.initWait guarded) .internal s
      (.unlock (.acquire guarded) (.error .initFailed))
  | waitFailed {s guarded} :
    CallStep cfg t s (.wait guarded) .internal s
      (.unlock (.acquire guarded) (.error .operationFailed))
  | block {s guarded} : CallStep cfg t s (.wait guarded) .internal
      { s with mutex := none, waiters := s.waiters.block t } (.waiting guarded)
  | spurious {s guarded} : t ∈ s.waiters.blocked → CallStep cfg t s (.waiting guarded) .internal
      { s with waiters := s.waiters.wake t } (.waiting guarded)
  | resume {s guarded} : t ∈ s.waiters.woken → s.mutex = none →
    CallStep cfg t s (.waiting guarded) .internal
      { s with mutex := some t, waiters := s.waiters.leave t } (.test guarded)
  | resumeFailed {s guarded} : cfg.lateWaitFailure = true → t ∈ s.waiters.woken → s.mutex = none →
    CallStep cfg t s (.waiting guarded) .internal
      { s with mutex := some t, waiters := s.waiters.leave t }
      (.unlock (.acquire guarded) (.error .operationFailed))
  -- `release`, with `cond_var::notify_one`.
  | full {s} : s.counter.val = cfg.T.highest →
    CallStep cfg t s .check .internal s (.unlock .release (.error .overflow))
  | room {s} : s.counter.val ≠ cfg.T.highest → CallStep cfg t s .check .internal s .increment
  | increment {s} : CallStep cfg t s .increment .increment
      { s with counter := .ofInt cfg.T (s.counter.val + 1) } .initNotify
  | notifyReady {s} : s.condVarReady = true → CallStep cfg t s .initNotify .internal s .notify
  | notifyCreated {s} : s.condVarReady = false →
    CallStep cfg t s .initNotify .internal { s with condVarReady := true } .notify
  | notifyNotCreated {s} : s.condVarReady = false →
    CallStep cfg t s .initNotify .internal s (.rollback .initFailed)
  | notifyFailed {s} : CallStep cfg t s .notify .internal s (.rollback .operationFailed)
  | notifyNobody {s} : s.waiters.blocked = ∅ →
    CallStep cfg t s .notify .internal s (.unlock .release .ok)
  | notifyOne {s u} : u ∈ s.waiters.blocked → CallStep cfg t s .notify .internal
      { s with waiters := s.waiters.wake u } (.unlock .release .ok)
  | rollback {s e} : CallStep cfg t s (.rollback e) .rollback
      { s with counter := .ofInt cfg.T (s.counter.val - 1) } (.unlock .release (.error e))
  -- The guard unlocks the mutex as the call returns, and asserts that this succeeds.
  | unlock {s call outcome} : CallStep cfg t s (.unlock call outcome) (.ret call outcome)
      { s with mutex := none } (call.after outcome)
  | makeGuard {s outcome} :
    CallStep cfg t s (.makeGuard outcome) (.accessed outcome) s .idle

/-- Threads that call `acquire`, `access` and `release` on one fresh semaphore. -/
def program (Tid : Type) [DecidableEq Tid] (cfg : Config) :
    Program Tid (Shared Tid cfg.T) Pc Event where
  shared := ⟨cfg.initial, none, false, false, .empty⟩
  start := .idle
  step := CallStep cfg

/-- The acquires that returned success. -/
def acquired (es : List (Tid × Event)) : Nat :=
  es.countP fun e => ∃ guarded, e.2 = .ret (.acquire guarded) .ok

/-- The releases that returned success. -/
def released (es : List (Tid × Event)) : Nat :=
  es.countP fun e => e.2 = .ret .release .ok

def Event.change : Event → Int
  | .increment => 1
  | .decrement | .rollback => -1
  | _ => 0

/-- What thread `t` has added to the counter since its last call started. -/
def callChange (t : Tid) (es : List (Tid × Event)) : Int :=
  (Program.eventsOf t es).foldl (fun total e =>
    match e with
    | .call _ => 0
    | e => total + e.change) 0

end Semaphore

end LibCxxExt.Threading
