import LibCxxExt.Threading.SemaphorePermits
import Mathlib.Data.List.Infix

/-! Permits in the hands of the callers. Client code gives back permits that it took, and every
guard that `access` returns gives back the permit that was taken for it when it ends. The counter,
the permits that client code holds and the guards that are alive share out the initial permits. -/

namespace LibCxxExt.Threading.Semaphore

open LibCxxExt.ProofKit

/-! ### Calls in pairs -/

/-- The calls of `release`. -/
def given (es : List (Tid × Event)) : Nat := es.countP fun e => e.2 = .call .release

def Event.endsRelease : Event → Bool
  | .ret .release _ => true
  | _ => false

/-- The releases that returned an error. -/
def failed (es : List (Tid × Event)) : Nat :=
  es.countP fun e => e.2.endsRelease ∧ e.2 ≠ .ret .release .ok

/-- Every release follows an acquire of its own. -/
def Paired (es : List (Tid × Event)) : Prop := ∀ pre, pre <+: es → given pre ≤ acquired pre

/-- The call that a thread at the program counter is in. -/
def Pc.inside : Pc → Option Call
  | .initMutex call | .lock call | .lockFailed call _ | .unlock call _ => some call
  | .test guarded | .decrement guarded | .initWait guarded | .wait guarded | .waiting guarded =>
    some (.acquire guarded)
  | .check | .increment | .initNotify | .notify | .rollback _ => some .release
  | .idle | .makeGuard _ => none

/-- A permit was taken for a guard that is not made yet. -/
def making (pc : Pc) : Int := if pc = .makeGuard .ok then 1 else 0

variable {Tid : Type} [DecidableEq Tid] {cfg : Config} {t : Tid} {s s' : Shared Tid cfg.T}
  {pc pc' : Pc} {e : Event} {es : List (Tid × Event)}
  {state : ThreadState Tid (Shared Tid cfg.T) Pc}

theorem opens_making : Program.Opens (program Tid cfg) making (· = .ret (.acquire true) .ok)
    (· = .accessed .ok) where
  start := rfl
  nonneg pc := by
    unfold making
    split_ifs <;> decide
  step moved := by
    cases moved with
    | @locked c => cases c <;> simp [making, Call.entry]
    | @lockFailed c _ | @unlock c _ => rcases c with (_ | _) | _ <;> simp [making, Call.after]
    | _ => simp [making]

/-- The thread is about to return that the counter is at its maximum. -/
def Overflows : Pc → Prop
  | .unlock .release (.error .overflow) | .lockFailed .release .overflow | .rollback .overflow =>
    True
  | _ => False

theorem CallStep.overflows (moved : CallStep cfg t s pc e s' pc') (overflow : Overflows pc') :
    pc = .check ∧ s.counter.val = cfg.T.highest ∨ Overflows pc := by
  cases moved with
  | full high => exact .inl ⟨rfl, high⟩
  | @locked c => cases c <;> simp [Overflows, Call.entry] at overflow
  | @lockFailed c _ | @unlock c _ =>
    rcases c with (_ | _) | _ <;> simp [Overflows, Call.after] at overflow
  | @rollback err => exact .inr (by cases err <;> simp_all [Overflows])
  | _ => simp [Overflows] at overflow

/-- A semaphore, and the number of its guards that are alive. A guard may be moved to another
thread, and it calls `release_guard` once, as `ResourceGuard` shows. -/
structure Clients (Tid : Type) (T : IntTy) where
  semaphore : Shared Tid T
  guards : Nat

/-- A thread is in a call of client code, if in any, or in the end of a guard. -/
inductive ClientPc
  | direct (pc : Pc)
  | ending (pc : Pc)
  | terminated

inductive ClientEvent
  | direct (e : Event)
  | ending (e : Event)
  deriving DecidableEq

/-- Where the semaphore sees the thread. -/
def ClientPc.seen : ClientPc → Pc
  | direct pc | ending pc => pc
  | terminated => .idle

def ClientEvent.seen : ClientEvent → Event
  | direct e | ending e => e

inductive ClientStep (cfg : Config) (t : Tid) :
    Clients Tid cfg.T → ClientPc → ClientEvent → Clients Tid cfg.T → ClientPc → Prop
  | direct {s s' n pc e pc'} : CallStep cfg t s pc e s' pc' → e ≠ .accessed .ok →
    ClientStep cfg t ⟨s, n⟩ (.direct pc) (.direct e) ⟨s', n⟩ (.direct pc')
  | makeGuard {s n} : ClientStep cfg t ⟨s, n⟩ (.direct (.makeGuard .ok)) (.direct (.accessed .ok))
      ⟨s, n + 1⟩ (.direct .idle)
  -- `release_guard`, which asserts that `release` succeeds.
  | endGuard {s n} : ClientStep cfg t ⟨s, n + 1⟩ (.direct .idle) (.ending (.call .release)) ⟨s, n⟩
      (.ending (.initMutex .release))
  | ending {s s' n pc e pc'} : InCall pc → CallStep cfg t s pc e s' pc' → InCall pc' →
    ClientStep cfg t ⟨s, n⟩ (.ending pc) (.ending e) ⟨s', n⟩ (.ending pc')
  | guardEnded {s s' n pc} : CallStep cfg t s pc (.ret .release .ok) s' .idle →
    ClientStep cfg t ⟨s, n⟩ (.ending pc) (.ending (.ret .release .ok)) ⟨s', n⟩ (.direct .idle)
  | guardFailed {s s' n pc err} : CallStep cfg t s pc (.ret .release (.error err)) s' .idle →
    ClientStep cfg t ⟨s, n⟩ (.ending pc) (.ending (.ret .release (.error err))) ⟨s', n⟩ .terminated

/-- Threads that call `acquire`, `access` and `release` on one fresh semaphore, and end the guards
that `access` returned. -/
def clients (Tid : Type) [DecidableEq Tid] (cfg : Config) :
    Program Tid (Clients Tid cfg.T) ClientPc ClientEvent where
  shared := ⟨(program Tid cfg).shared, 0⟩
  start := .direct .idle
  step := ClientStep cfg

/-- The permits that `acquire` took for client code. -/
def taken (es : List (Tid × ClientEvent)) : Nat :=
  es.countP fun e => e.2.seen = .ret (.acquire false) .ok

/-- The permits that client code gives back itself. -/
def givenBack (es : List (Tid × ClientEvent)) : Nat :=
  es.countP fun e => e.2 = .direct (.call .release)

/-- The precondition of `release`: there was a corresponding `acquire`. -/
def Disciplined (es : List (Tid × ClientEvent)) : Prop :=
  ∀ pre, pre <+: es → givenBack pre ≤ taken pre

/-- The permits that were taken for guards. -/
def takenForGuards (es : List (Tid × ClientEvent)) : Nat :=
  es.countP fun e => e.2.seen = .ret (.acquire true) .ok

def accessed (es : List (Tid × ClientEvent)) : Nat := es.countP fun e => e.2.seen = .accessed .ok

def ended (es : List (Tid × ClientEvent)) : Nat :=
  es.countP fun e => e.2 = .ending (.call .release)

/-- What the semaphore sees of its clients. -/
def ofClients (Tid : Type) [DecidableEq Tid] (cfg : Config) :
    Program.Projection (clients Tid cfg) (program Tid cfg) where
  shared := Clients.semaphore
  pc := ClientPc.seen
  event e := some e.seen
  start := ⟨rfl, rfl⟩
  step moved := by
    cases moved with
    | direct moved | ending _ moved | guardEnded moved | guardFailed moved => exact moved
    | makeGuard => exact .makeGuard
    | endGuard => exact .call

section Clients

variable {es : List (Tid × ClientEvent)} {state : ThreadState Tid (Clients Tid cfg.T) ClientPc}

omit [DecidableEq Tid] in
theorem countP_split {p q r : ClientEvent → Prop} [DecidablePred p] [DecidablePred q]
    [DecidablePred r]
    (split : ∀ e, (if p e then 1 else 0) = (if q e then 1 else 0) + if r e then 1 else 0)
    (es : List (Tid × ClientEvent)) :
    (es.countP fun e => p e.2) = (es.countP fun e => q e.2) + es.countP fun e => r e.2 := by
  induction es with
  | nil => rfl
  | cons e es ih =>
    have here := split e.2
    simp only [List.countP_cons, decide_eq_true_eq]
    omega

theorem events_eq (es : List (Tid × ClientEvent)) :
    (ofClients Tid cfg).events es = es.map fun e => (e.1, e.2.seen) := by
  rw [Program.Projection.events, ← List.filterMap_eq_map]
  rfl

theorem acquired_events (es : List (Tid × ClientEvent)) :
    acquired ((ofClients Tid cfg).events es) = taken es + takenForGuards es := by
  rw [events_eq, acquired, List.countP_map]
  refine countP_split (p := fun e => ∃ guarded, e.seen = .ret (.acquire guarded) .ok)
    (q := fun e => e.seen = .ret (.acquire false) .ok)
    (r := fun e => e.seen = .ret (.acquire true) .ok) (fun e => ?_) es
  cases e.seen with
  | ret c o => rcases c with (_ | _) | _ <;> cases o <;> simp
  | _ => simp

theorem given_events (es : List (Tid × ClientEvent)) :
    given ((ofClients Tid cfg).events es) = givenBack es + ended es := by
  rw [events_eq, given, List.countP_map]
  refine countP_split (p := fun e => e.seen = .call .release)
    (q := fun e => e = .direct (.call .release)) (r := fun e => e = .ending (.call .release))
    (fun e => ?_) es
  rcases e with e | e <;> by_cases same : e = .call .release <;> simp [ClientEvent.seen, same]

theorem ClientStep.guards {s s' : Clients Tid cfg.T} {pc pc' : ClientPc} {e : ClientEvent}
    (moved : ClientStep cfg t s pc e s' pc') :
    s'.guards + ended [(t, e)] = s.guards + accessed [(t, e)] := by
  cases moved with
  | direct _ other => simp [ended, accessed, ClientEvent.seen, other]
  | ending begun moved inside =>
    cases moved with
    | makeGuard => exact inside.elim
    | call => exact begun.elim
    | _ => simp [ended, accessed, ClientEvent.seen]
  | _ => simp [ended, accessed, ClientEvent.seen]

/-- The guards that are alive are those that `access` returned and that have not ended. -/
theorem guards_eq (run : (clients Tid cfg).Run es state) :
    state.shared.guards + ended es = accessed es := by
  refine run.invariant (I := fun es state => state.shared.guards + ended es = accessed es) rfl ?_
  intro es state t e shared pc before moved
  have step := moved.guards
  have counted : ended (es ++ [(t, e)]) = ended es + ended [(t, e)] ∧
      accessed (es ++ [(t, e)]) = accessed es + accessed [(t, e)] :=
    ⟨List.countP_append, List.countP_append⟩
  rw [counted.1, counted.2]
  dsimp only
  omega

/-- The permits that were taken for guards which are not made yet. -/
theorem balance_making (es : List (Tid × ClientEvent)) :
    Program.balance (· = .ret (.acquire true) .ok) (· = .accessed .ok)
      ((ofClients Tid cfg).events es) = (takenForGuards es : Int) - accessed es := by
  rw [events_eq, Program.balance, List.countP_map, List.countP_map]
  rfl

theorem accessed_le (run : (clients Tid cfg).Run es state) : accessed es ≤ takenForGuards es := by
  have made := opens_making.balance_nonneg ((ofClients Tid cfg).run run)
  rw [balance_making] at made
  omega

/-- The end of a guard gives back a permit that was taken for it. -/
theorem paired (run : (clients Tid cfg).Run es state) (disciplined : Disciplined es) :
    Paired ((ofClients Tid cfg).events es) := by
  intro _ le
  obtain ⟨pre, early, rfl⟩ := List.prefix_filterMap_iff.mp le
  obtain ⟨before, run⟩ := run.of_prefix early
  have direct := disciplined pre early
  have alive := guards_eq run
  have made := accessed_le run
  have back : given ((ofClients Tid cfg).events pre) = _ := given_events pre
  have all : acquired ((ofClients Tid cfg).events pre) = _ := acquired_events pre
  rw [Program.Projection.events] at back all
  omega

end Clients

end LibCxxExt.Threading.Semaphore
