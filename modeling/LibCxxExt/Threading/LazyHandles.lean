import LibCxxExt.Threading.Once

/-! `ordinary_mutex` (`Mutex.h`) and `cond_var` (`ConditionVariable.h`), which create their handles
in the first call that needs them. Any number of threads interleave their calls, by one step of
`once` or one operation on a handle at a time, and every operation may report any result. -/

namespace LibCxxExt.Threading.LazyHandles

open LibCxxExt.ProofKit

/-- `internal::threading_error`, what an operation on a handle reports. -/
inductive OsResult
  | error
  | ok
  | timeout
  | busy
  | oom
deriving DecidableEq

/-- The values of `threading_error` that the two classes report. -/
inductive Error
  | initFailed
  | operationFailed
  | busy
deriving DecidableEq

/-- How a call returns. A lock operation succeeds with or without a guard. -/
inductive Outcome
  | success
  | error (e : Error)
deriving DecidableEq

inductive Object
  | mutex
  | condVar
deriving DecidableEq

/-- The operations on a handle other than `create` and `destroy`. -/
inductive Op
  | lock
  | tryLock
  | unlock
  | wait
  | signal
  | broadcast
deriving DecidableEq

def Op.object : Op → Object
  | .lock | .tryLock | .unlock => .mutex
  | .wait | .signal | .broadcast => .condVar

def Op.Locks (op : Op) : Prop := op = .lock ∨ op = .tryLock

instance : DecidablePred Op.Locks := fun _ => inferInstanceAs (Decidable (_ ∨ _))

/-- The calls of the two classes, and the end of a guard. -/
inductive Call
  | lock
  | tryLock
  | acquire
  | tryAcquire
  | release
  | releaseGuard
  | wait
  | waitUntil
  | notifyOne
  | notifyAll
deriving DecidableEq

def Call.op : Call → Op
  | .lock | .acquire => .lock
  | .tryLock | .tryAcquire => .tryLock
  | .release | .releaseGuard => .unlock
  | .wait | .waitUntil => .wait
  | .notifyOne => .signal
  | .notifyAll => .broadcast

def Call.object (c : Call) : Object := c.op.object

/-- The functor of `try_init`, by what `create` reports. -/
def tryInit (ret : OsResult) : Once.Outcome :=
  if ret ≠ .ok then .error else .success

/-- What a call makes of the result of its operation. -/
def Call.outcome (c : Call) (ret : OsResult) : Outcome :=
  match c with
  | .tryLock | .tryAcquire =>
    if ret ≠ .ok ∧ ret = .busy then .error .busy
    else if ret ≠ .ok then .error .operationFailed
    else .success
  | _ => if ret ≠ .ok then .error .operationFailed else .success

/-- Where a thread stands, before the step of that name. -/
inductive Pc
  | idle
  | pred
  | init (c : Call) (at_ : Once.Pc)
  | contract (c : Call)
  | use (c : Call)
  | report (c : Call) (outcome : Outcome)
  | terminated
deriving DecidableEq

inductive Event
  | call (c : Call)
  | pred (holds : Bool)
  | threw
  | once (o : Object) (e : Once.Event)
  | contract (met : Bool)
  | use (op : Op) (ret : OsResult)
  | ret (c : Call) (outcome : Outcome)
deriving DecidableEq

def Call.entry : Call → Pc
  | .waitUntil => .pred
  | .release => .contract .release
  | .releaseGuard => .contract .releaseGuard
  | c => .init c .idle

/-- What follows the operation of a call. -/
def Call.after (c : Call) (ret : OsResult) : Pc :=
  match c with
  | .waitUntil => if ret = .ok then .pred else .report c (c.outcome ret)
  -- A guard whose release fails violates a contract.
  | .releaseGuard => if c.outcome ret = .success then .report c .success else .terminated
  | _ => .report c (c.outcome ret)

/-- The steps of `try_init` up to its return. -/
def InTryInit : Once.Event → Prop
  | .call f => f = .result
  | .finish outcome => ∃ ret, outcome = tryInit ret
  | .ret _ => False
  | _ => True

/-- One atomic step of a thread, on the flags of the two objects. -/
inductive CallStep : (Object → Once.Flags) → Pc → Event → (Object → Once.Flags) → Pc → Prop
  | call {s c} : CallStep s .idle (.call c) s c.entry
  | predHolds {s} : CallStep s .pred (.pred true) s (.report .waitUntil .success)
  | predFails {s} : CallStep s .pred (.pred false) s (.init .waitUntil .idle)
  | predThrows {s} : CallStep s .pred .threw s .idle
  | once {s c p e flags p'} : InTryInit e → Once.CallStep (s c.object) p e flags p' →
    CallStep s (.init c p) (.once c.object e) (Function.update s c.object flags) (.init c p')
  | ready {s c f} :
    CallStep s (.init c (.leave f .success)) (.once c.object (.ret .success)) s (.use c)
  | notReady {s c f outcome} : outcome ≠ .success → CallStep s (.init c (.leave f outcome))
      (.once c.object (.ret outcome)) s (.report c (.error .initFailed))
  | contractMet {s c} : (s c.object).initialized = true →
    CallStep s (.contract c) (.contract true) s (.use c)
  -- The whole process ends; the steps of other threads after it are more than can happen.
  | contractViolated {s c} : (s c.object).initialized = false →
    CallStep s (.contract c) (.contract false) s .terminated
  | use {s c ret} : CallStep s (.use c) (.use c.op ret) s (c.after ret)
  | ret {s c outcome} : CallStep s (.report c outcome) (.ret c outcome) s .idle

/-- Threads that call a fresh mutex and a fresh condition variable. -/
def program (Tid : Type) : Program Tid (Object → Once.Flags) Pc Event where
  shared := fun _ => ⟨false, false⟩
  start := .idle
  step _ := CallStep

/-- Whether the destructor destroys the handle. -/
def destroys (flags : Once.Flags) : Bool := flags.initialized

/-! ### The two `once` -/

/-- Where a thread stands in `call_once` of an object. -/
def Pc.onceOf (o : Object) : Pc → Once.Pc
  | .init c p => if c.object = o then p else .idle
  | _ => .idle

def Event.onceOf (o : Object) : Event → Option Once.Event
  | .once o' e => if o' = o then some e else none
  | _ => none

theorem after_cases (c : Call) (ret : OsResult) :
    c.after ret = .report c (c.outcome ret) ∨ c.after ret = .terminated ∨
      c = .waitUntil ∧ c.after ret = .pred := by
  cases c with
  | waitUntil =>
    by_cases ok : ret = .ok
    · exact .inr (.inr ⟨rfl, if_pos ok⟩)
    · exact .inl (if_neg ok)
  | releaseGuard =>
    by_cases success : Call.outcome .releaseGuard ret = .success
    · exact .inl (by simp [Call.after, success])
    · exact .inr (.inl (if_neg success))
  | _ => exact .inl rfl

theorem onceOf_after (o : Object) (c : Call) (ret : OsResult) : (c.after ret).onceOf o = .idle := by
  obtain after | after | ⟨-, after⟩ := after_cases c ret <;> rw [after] <;> rfl

theorem onceOf_entry (o : Object) (c : Call) : c.entry.onceOf o = .idle := by
  cases c <;> simp [Call.entry, Pc.onceOf]

/-- What a run does to the `once` of an object is a run of that `once`. -/
def onceOf (Tid : Type) [DecidableEq Tid] (o : Object) :
    Program.Projection (program Tid) (Once.program Tid) where
  shared s := s o
  pc := Pc.onceOf o
  event := Event.onceOf o
  start := ⟨rfl, rfl⟩
  step {t s p e s' p'} moved := by
    cases moved with
    | call => exact ⟨rfl, onceOf_entry o _⟩
    | use => exact ⟨rfl, onceOf_after o _ _⟩
    | predFails => exact ⟨rfl, by simp [Pc.onceOf]⟩
    | @once c _ _ _ _ _ moved =>
      by_cases same : c.object = o
      · subst same
        simpa [Event.onceOf, Pc.onceOf, Once.program] using moved
      · simp [Event.onceOf, Pc.onceOf, same, Function.update_of_ne (Ne.symm same)]
    | @ready c | @notReady c =>
      by_cases same : c.object = o
      · simpa [Event.onceOf, Pc.onceOf, Once.program, same] using Once.CallStep.ret
      · simp [Event.onceOf, Pc.onceOf, same]
    | _ => exact ⟨rfl, rfl⟩

theorem Event.onceOf_eq_some {o : Object} {e : Event} {e' : Once.Event} :
    e.onceOf o = some e' ↔ e = .once o e' := by
  cases e with
  | once o' e => simp [Event.onceOf]
  | _ => simp [Event.onceOf]

section Created

variable {Tid : Type} [DecidableEq Tid] {es : List (Tid × Event)}
  {s : ThreadState Tid (Object → Once.Flags) Pc}

theorem onceInvariant (run : (program Tid).Run es s) (o : Object) :
    Once.Invariant ((onceOf Tid o).events es) ((onceOf Tid o).state s) :=
  Once.invariant ((onceOf Tid o).run run)

theorem successes_onceOf (o : Object) (es : List (Tid × Event)) :
    Once.successes ((onceOf Tid o).events es) =
      es.countP fun e => e.2 = .once o (.finish .success) := by
  rw [Once.successes, Program.Projection.events, List.countP_filterMap]
  refine List.countP_congr fun e _ => ?_
  cases seen : e.2.onceOf o with
  | none =>
    have other : e.2 ≠ .once o (.finish .success) := fun h => by
      simp [Event.onceOf_eq_some.mpr h] at seen
    simp [onceOf, seen, other]
  | some e' => simp [onceOf, Event.onceOf_eq_some.mp seen, Event.onceOf]

/-- Once the flag is set, the handle has been created. -/
theorem exists_created (run : (program Tid).Run es s) {o : Object}
    (set : (s.shared o).initialized = true) : ∃ t, (t, .once o (.finish .success)) ∈ es := by
  obtain ⟨t, mem⟩ := Once.exists_success (onceInvariant run o) set
  obtain ⟨e, mem, seen⟩ := (onceOf Tid o).mem_events.mp mem
  exact ⟨t, Event.onceOf_eq_some.mp seen ▸ mem⟩

theorem CallStep.initialized_stays {flags flags' : Object → Once.Flags} {p p' : Pc} {e : Event}
    {o : Object} (moved : CallStep flags p e flags' p') (set : (flags o).initialized = true) :
    (flags' o).initialized = true := by
  cases moved with
  | @once c _ _ _ _ _ moved =>
    by_cases same : c.object = o
    · subst same
      rw [Function.update_self]
      exact moved.initialized_stays set
    · rwa [Function.update_of_ne (Ne.symm same)]
  | _ => exact set

theorem CallStep.reaches_use {flags flags' : Object → Once.Flags} {p p' : Pc} {e : Event}
    {c : Call} (moved : CallStep flags p e flags' p') (at_ : p' = .use c) :
    flags' = flags ∧ ((∃ f, p = .init c (.leave f .success)) ∨
      (flags c.object).initialized = true) := by
  cases moved with
  | @call c' => cases c' <;> exact absurd at_ nofun
  | @use c' ret =>
    obtain after | after | ⟨-, after⟩ := after_cases c' ret <;> rw [after] at at_ <;>
      exact absurd at_ nofun
  | @ready c' f =>
    obtain rfl : c' = c := by simpa using at_
    exact ⟨rfl, .inl ⟨f, rfl⟩⟩
  | @contractMet c' met =>
    obtain rfl : c' = c := by simpa using at_
    exact ⟨rfl, .inr met⟩
  | _ => exact absurd at_ nofun

/-- A thread that is about to use a handle has seen its flag. -/
theorem initialized_of_use (run : (program Tid).Run es s) :
    ∀ t c, s.pc t = .use c → (s.shared c.object).initialized = true := by
  refine (run.invariant (I := fun es s => (program Tid).Run es s ∧
    ∀ t c, s.pc t = .use c → (s.shared c.object).initialized = true) ⟨.start, nofun⟩ ?_).2
  rintro es s t e shared p ⟨run, ready⟩ moved
  refine ⟨run.step (.thread moved), (Function.forall_update_iff s.pc fun _ q =>
    ∀ c, q = Pc.use c → (shared c.object).initialized = true).mpr
    ⟨fun c at_ => ?_, fun u _ c at_ => CallStep.initialized_stays moved (ready u c at_)⟩⟩
  obtain ⟨rfl, ⟨f, before⟩ | set⟩ := CallStep.reaches_use moved at_
  · have knows := (onceInvariant run c.object).knows t
    simpa [Program.Projection.state, onceOf, before, Pc.onceOf, Once.Knows] using knows
  · exact set

end Created

end LibCxxExt.Threading.LazyHandles
