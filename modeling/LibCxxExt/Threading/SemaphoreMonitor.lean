import LibCxxExt.Threading.MonitorSafety
import LibCxxExt.Threading.SemaphorePermits

/-! `ordinary_semaphore` is a client of `ordinary_mutex` and `cond_var` that keeps their
preconditions: its counter is data that is written with the mutex locked, every wait has the mutex
of its caller, and the only thing that a call leaves behind is the counter. -/

namespace LibCxxExt.Threading.Semaphore

open LibCxxExt.ProofKit
open Monitor (OsMutex Point)

variable {Tid : Type} [DecidableEq Tid] {cfg : Config} {t : Tid} {s s' : Shared Tid cfg.T}
  {pc pc' : Pc} {e : Event}

/-- The data is the counter, and the mutex a plain one. -/
def client (cfg : Config) : Monitor.Config (CInt cfg.T) where
  recursive := false
  lateWaitFailure := cfg.lateWaitFailure
  initial := cfg.initial

def hasPermit (T : IntTy) : CInt T → Bool := fun counter => 0 < counter.val

def osMutex : Option Tid → OsMutex Tid
  | none => .free
  | some t => .held t 0

def Shared.monitor (s : Shared Tid cfg.T) : Monitor.Shared Tid (CInt cfg.T) where
  data := s.counter
  mutex := osMutex s.mutex
  mutexReady := s.mutexReady
  condVarReady := s.condVarReady
  waiters := s.waiters

/-- A call has one guard of the mutex, or none. -/
def Pc.monitor (T : IntTy) : Pc → Monitor.Pc (CInt T)
  | .idle | .lockFailed _ _ | .makeGuard _ => ⟨0, 0, .idle⟩
  | .initMutex _ => ⟨0, 0, .initTake .lock⟩
  | .lock _ => ⟨0, 0, .take .lock⟩
  | .test _ => ⟨1, 0, .test (hasPermit T)⟩
  | .initWait _ => ⟨1, 0, .initWait (some (hasPermit T))⟩
  | .wait _ => ⟨1, 0, .wait (some (hasPermit T))⟩
  | .waiting _ => ⟨1, 0, .waiting (some (hasPermit T))⟩
  | .initNotify => ⟨1, 0, .initNotify false⟩
  | .notify => ⟨1, 0, .notify false⟩
  | .decrement _ | .check | .increment | .rollback _ | .unlock _ _ => ⟨1, 0, .idle⟩

theorem monitor_after (call : Call) (outcome : Outcome) :
    (call.after outcome).monitor cfg.T = ⟨0, 0, .idle⟩ := by
  rcases call with (_ | _) | _ <;> rfl

theorem lock_monitor (recursive : Bool) (free : s.mutex = none) :
    s.monitor.mutex.lock recursive t = some (.held t 0) := by
  rw [Shared.monitor, free]
  rfl

omit [DecidableEq Tid] in
theorem unlock_monitor (owner : s.mutex = some t) (waiters : WaitSet Tid) :
    { s with mutex := none, waiters }.monitor =
      { s.monitor with mutex := s.monitor.mutex.unlock, waiters } := by
  simp [Shared.monitor, owner, osMutex, OsMutex.unlock]

/-- What a step of the semaphore is for the mutex and the condition variable. -/
theorem CallStep.monitor (moved : CallStep cfg t s pc e s' pc')
    (owner : Critical pc → s.mutex = some t) :
    ∃ own, Program.Alone (Monitor.program Tid (client cfg)) t s.monitor (pc.monitor cfg.T) own
      s'.monitor (pc'.monitor cfg.T) := by
  have one : 0 < 1 + 0 := Nat.one_pos
  cases moved with
  | call => exact ⟨_, .step .callTake .refl⟩
  | mutexReady ready => exact ⟨_, .step (.mutexReady ready) .refl⟩
  | mutexCreated fresh => exact ⟨_, .step (.mutexCreated fresh) .refl⟩
  | mutexNotCreated fresh => exact ⟨_, .step (.mutexNotCreated fresh) .refl⟩
  | @locked call free =>
    have taken := lock_monitor (t := t) false free
    cases call with
    | acquire => exact ⟨_, .step (.taken taken) (.step (.callWaitUntil one) .refl)⟩
    | release => exact ⟨_, .step (.taken taken) .refl⟩
  | notLocked => exact ⟨_, .step (.notTaken .error nofun nofun) .refl⟩
  | lockFailed => exact ⟨[], by rw [monitor_after]; exact .refl⟩
  | permit some_ => exact ⟨_, .step (.holds (decide_eq_true some_)) .refl⟩
  | noPermit none => exact ⟨_, .step (.fails (decide_eq_false none)) .refl⟩
  | decrement | rollback => exact ⟨_, .step (.write _ one) .refl⟩
  | waitReady ready => exact ⟨_, .step (.waitReady ready) .refl⟩
  | waitCreated fresh => exact ⟨_, .step (.waitCreated fresh) .refl⟩
  | waitNotCreated fresh => exact ⟨_, .step (.waitNotCreated fresh) .refl⟩
  | waitFailed => exact ⟨_, .step (.notWaited .error nofun) .refl⟩
  | block =>
    rw [unlock_monitor (owner trivial)]
    exact ⟨_, .step .block .refl⟩
  | spurious here => exact ⟨_, .step (.spurious here) .refl⟩
  | resume here free => exact ⟨_, .step (.tested here (lock_monitor false free)) .refl⟩
  | resumeFailed late here free =>
    exact ⟨_, .step (.resumeFailed .error late nofun here (lock_monitor false free)) .refl⟩
  | full | room => exact ⟨[], .refl⟩
  | increment => exact ⟨_, .step (.write _ one) (.step (.callNotify false) .refl)⟩
  | notifyReady ready => exact ⟨_, .step (.notifyReady ready) .refl⟩
  | notifyCreated fresh => exact ⟨_, .step (.notifyCreated fresh) .refl⟩
  | notifyNotCreated fresh => exact ⟨_, .step (.notifyNotCreated fresh) .refl⟩
  | notifyFailed => exact ⟨_, .step (.notNotified .error nofun) .refl⟩
  | notifyNobody none => exact ⟨_, .step (.notifyNobody none) .refl⟩
  | notifyOne here => exact ⟨_, .step (.notifyOne here) .refl⟩
  | @unlock call outcome =>
    rw [monitor_after, unlock_monitor (owner trivial)]
    exact ⟨_, .step (.callDrop true Nat.one_pos) (.step .dropped .refl)⟩
  | makeGuard => exact ⟨[], .refl⟩

/-- A semaphore is a client of its mutex and its condition variable. -/
def monitor (Tid : Type) [DecidableEq Tid] (cfg : Config) :
    Program.Expansion (program Tid cfg) (Monitor.program Tid (client cfg)) where
  shared := Shared.monitor
  pc := Pc.monitor cfg.T
  start := ⟨rfl, rfl⟩
  step run moved := CallStep.monitor moved ((invariant run).owned _).mp

/-- Every state that a semaphore reaches, with any number of threads and every pattern of failures,
is one that threads reach which call the mutex and the condition variable under their preconditions
and write the counter with the mutex locked. In it a call that tests or moves the counter, notifies
or waits has exactly one guard of the mutex and every other one none, and the mutex is in the
possession of one call at most, which is not one that waits. -/
theorem semaphore_monitor {es : List (Tid × Event)}
    {state : ThreadState Tid (Shared Tid cfg.T) Pc} (run : (program Tid cfg).Run es state) :
    (∃ es', (Monitor.program Tid (client cfg)).Run es' ((monitor Tid cfg).state state)) ∧
    (∀ t u, 0 < ((state.pc t).monitor cfg.T).levels → 0 < ((state.pc u).monitor cfg.T).levels →
      t = u) ∧
    ∀ t, Critical (state.pc t) ↔ 0 < ((state.pc t).monitor cfg.T).levels := by
  obtain ⟨es', reached⟩ := (monitor Tid cfg).run run
  refine ⟨⟨es', reached⟩, fun t u => (Monitor.invariant reached).exclusive, fun t => ?_⟩
  cases state.pc t <;> simp [Critical, Pc.monitor, Monitor.Pc.levels]

/-- In an `acquire` of a binary semaphore a thread has a guard of the mutex. -/
theorem binary_monitor : ∃ es state, (program Bool binary).Run es state ∧
    Critical (state.pc true) ∧ 0 < ((state.pc true).monitor binary.T).levels := by
  have fresh := Program.Run.start (P := program Bool binary)
  have called := fresh.step (.thread (t := true) (.call (c := .acquire true)))
  have created := called.step (.thread (t := true) (.mutexCreated rfl))
  have locked := created.step (.thread (t := true) (.locked rfl))
  exact ⟨_, _, locked, trivial, ((semaphore_monitor locked).2.2 true).mp trivial⟩

end LibCxxExt.Threading.Semaphore
