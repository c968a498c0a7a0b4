import LibCxxExt.Threading.ManagedThread
import Mathlib.Data.List.Count
import Mathlib.Tactic.Ring

/-! `managed_thread::ctor` (`ThreadEx.h`), which copies the functor of a thread to the heap. Either
the thread or `ctor` itself has to destroy the copy and to free its memory. -/

namespace LibCxxExt.Threading.ManagedThread

open LibCxxExt.ProofKit
open LazyHandles (OsResult)

/-- What happens to the copy of the functor and to its memory. -/
inductive HeapEvent
  | allocate
  | construct
  | destroy
  | free
deriving DecidableEq

/-- A functor, and what everything that `ctor` calls comes to. -/
structure Creation where
  /-- `INothrowConstructibleFrom<std::decay_t<Func>, Func>`. -/
  nothrow : Bool
  /-- `operator new` returns memory. -/
  memory : Bool
  /-- The construction of the copy returns. -/
  constructs : Bool
  promise : nothrow = true → constructs = true
  /-- What `thrd_create` reports. -/
  create : OsResult
  /-- The call of the functor returns a number, for one that returns something else 0, or throws. -/
  call : Option Int

/-- What happened so far, and whether `onFail` will act. -/
structure Scope where
  log : List HeapEvent := []
  onFail : Bool := false
deriving DecidableEq

def emit (e : HeapEvent) : Exec Scope Unit := Exec.modify fun s => { s with log := s.log ++ [e] }

/-- `new(std::nothrow) std::decay_t<Func>(_forward(func))`: whether the pointer is not null. The
memory is freed when the construction throws. -/
def newNothrow (env : Creation) : Exec Scope Bool := do
  if !env.memory then
    return false
  emit .allocate
  Exec.onThrow (if env.constructs then emit .construct else Exec.throwing) (emit .free)
  return true

/-- The destructor of `onFail`, around `::operator delete(f, std::nothrow)`. -/
def destroyOnFail : Exec Scope Unit := do
  if (← Exec.get).onFail then
    emit .free

/-- The rest of `ctor` once the copy is made. -/
def createThread (env : Creation) : Exec Scope (Except Error Unit) := do
  Exec.modify fun s => { s with onFail := true }
  Exec.atExit (do
    if env.create ≠ .ok then
      return .error .initFailed
    Exec.modify fun s => { s with onFail := false }
    return .ok ()) destroyOnFail

/-- `managed_thread::ctor`. -/
def ctor (env : Creation) : Exec Scope (Except Error Unit) :=
  Exec.noexceptIf env.nothrow do
    if !(← newNothrow env) then
      return .error .oom
    createThread env

/-- `sys::bsentinel<int>()`. -/
def bsentinel : Int := -2 ^ 31

/-- The function that the new thread runs. `delete func` is deferred to its end. -/
def trampoline (env : Creation) : Exec Scope Int :=
  Exec.atExit (return env.call.getD bsentinel) do
    emit .destroy
    emit .free

/-- What `ctor` does, and what the thread does if one was created. -/
def ctorLog (env : Creation) : List HeapEvent := (ctor env {}).2.log

def threadLog (env : Creation) : List HeapEvent :=
  match (ctor env {}).1 with
  | .ok (.ok ()) => (trampoline env {}).2.log
  | _ => []

/-- The copy is destroyed and its memory is freed exactly once if there is one, by the thread when
one was created and else by `ctor`. -/
structure Owns (env : Creation) : Prop where
  destroyed : (ctorLog env ++ threadLog env).count .destroy = (ctorLog env).count .construct
  freed : (ctorLog env ++ threadLog env).count .free = (ctorLog env).count .allocate
  handed : (ctor env {}).1 = .ok (.ok ()) → .destroy ∉ ctorLog env ∧ .free ∉ ctorLog env

/-! ### The four exits -/

variable (env : Creation)

theorem trampoline_run (s : Scope) : trampoline env s =
    (.ok (env.call.getD bsentinel), { s with log := s.log ++ [.destroy, .free] }) := by
  simp [trampoline, Exec.atExit, Exec.onThrow, Exec.bind_run, emit, Exec.modify]

theorem newNothrow_run (s : Scope) : newNothrow env s =
    if !env.memory then (.ok false, s)
    else if !env.constructs then (.threw, { s with log := s.log ++ [.allocate, .free] })
    else (.ok true, { s with log := s.log ++ [.allocate, .construct] }) := by
  cases memory : env.memory <;> cases constructs : env.constructs <;>
    simp [newNothrow, memory, constructs, Exec.bind_run, Exec.onThrow, Exec.noexceptIf, emit,
      Exec.modify, Exec.throwing]

theorem createThread_run (s : Scope) : createThread env s =
    if env.create ≠ .ok then
      (.ok (.error .initFailed), { s with log := s.log ++ [.free], onFail := true })
    else (.ok (.ok ()), { s with onFail := false }) := by
  by_cases created : env.create = .ok <;>
    simp [createThread, created, destroyOnFail, Exec.atExit, Exec.onThrow, Exec.bind_run, emit,
      Exec.modify, Exec.get]

theorem ctor_run : ctor env {} =
    if !env.memory then (.ok (.error .oom), {})
    else if !env.constructs then (.threw, { log := [.allocate, .free] })
    else if env.create ≠ .ok then
      (.ok (.error .initFailed), { log := [.allocate, .construct, .free], onFail := true })
    else (.ok (.ok ()), { log := [.allocate, .construct] }) := by
  rw [ctor, Exec.noexceptIf, Exec.bind_run, newNothrow_run]
  cases env.memory with
  | false => simp
  | true =>
    cases constructs : env.constructs with
    | false =>
      have throws : env.nothrow = false := by
        by_contra promised
        simp [env.promise (by simpa using promised)] at constructs
      simp [throws]
    | true => by_cases created : env.create = .ok <;> simp [createThread_run, created]

/-- The copy of the functor is owned on every path but the one on which it was made and no thread
was created. -/
theorem owns_iff : Owns env ↔
    ¬ (env.memory = true ∧ env.constructs = true ∧ env.create ≠ .ok) := by
  have exits := ctor_run env
  cases memory : env.memory with
  | false =>
    rw [memory] at exits
    exact iff_of_true ⟨by simp [ctorLog, threadLog, exits], by simp [ctorLog, threadLog, exits],
      by simp [exits]⟩ (by simp)
  | true =>
    cases constructs : env.constructs with
    | false =>
      rw [memory, constructs] at exits
      exact iff_of_true ⟨by simp [ctorLog, threadLog, exits], by simp [ctorLog, threadLog, exits],
        by simp [exits]⟩ (by simp)
    | true =>
      rw [memory, constructs] at exits
      by_cases created : env.create = .ok
      · simp only [created, ne_eq, not_true_eq_false, Bool.not_true, Bool.false_eq_true,
          if_false] at exits
        have thread := trampoline_run env {}
        refine iff_of_true ⟨?_, ?_, ?_⟩ (by simp [created])
        · simp [ctorLog, threadLog, exits, thread]
        · simp [ctorLog, threadLog, exits, thread]
        · simp [ctorLog, exits]
      · -- `onFail` frees the memory, but nothing has destroyed the copy.
        refine iff_of_false (fun owns => ?_) (by simp [created])
        have destroyed := owns.destroyed
        simp [ctorLog, threadLog, exits, created] at destroyed

/-- The creation of the thread fails. -/
def refused : Creation where
  nothrow := true
  memory := true
  constructs := true
  promise := fun _ => rfl
  create := .error
  call := none

/-- The memory of the functor is freed with the functor in it. -/
theorem refused_leaks : ctor refused {} = (.ok (.error .initFailed),
      { log := [.allocate, .construct, .free], onFail := true }) ∧
    ¬ Owns refused := by
  refine ⟨ctor_run refused, fun owns => ?_⟩
  have destroyed := owns.destroyed
  revert destroyed
  decide

end LibCxxExt.Threading.ManagedThread
