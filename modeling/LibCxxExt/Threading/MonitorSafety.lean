import LibCxxExt.Threading.Monitor
import Mathlib.Tactic.SplitIfs

/-! What the guards of a mutex and the waits of a condition variable promise, in every run: one
thread at a time is in possession of the mutex, a wait returns to a thread that is, and what the
predicate of `wait_until` says of the data stays true until that thread moves. -/

namespace LibCxxExt.Threading.Monitor

open LibCxxExt.ProofKit
open LazyHandles (Call OsResult Outcome)

namespace OsMutex

variable {Tid : Type} [DecidableEq Tid] {m m' : OsMutex Tid} {recursive : Bool} {t u : Tid}

theorem levels_lock (locked : m.lock recursive t = some m') (u : Tid) :
    m'.levels u = m.levels u + if u = t then 1 else 0 := by
  cases m with
  | free =>
    obtain rfl := Option.some.inj locked
    simp [levels, eq_comm]
  | held owner more =>
    rw [lock] at locked
    split_ifs at locked with again
    obtain rfl := Option.some.inj locked
    obtain rfl := again.2
    simp only [levels, eq_comm]
    split_ifs <;> rfl

theorem levels_unlock (holds : 0 < m.levels t) (u : Tid) :
    m.levels u = m.unlock.levels u + if u = t then 1 else 0 := by
  cases m with
  | free => exact absurd holds (lt_irrefl 0)
  | held owner more =>
    obtain rfl : owner = t := by
      by_contra other
      simp [levels, other] at holds
    cases more <;> simp only [levels, unlock, eq_comm] <;> split_ifs <;> rfl

theorem exclusive (ht : 0 < m.levels t) (hu : 0 < m.levels u) : t = u := by
  cases m with
  | free => exact absurd ht (lt_irrefl 0)
  | held owner more =>
    have owned {v : Tid} (hv : 0 < (held owner more).levels v) : owner = v := by
      by_contra other
      simp [levels, other] at hv
    exact (owned ht).symm.trans (owned hu)

/-- The mutex cannot be locked while another thread has it, or the thread itself a plain one. -/
theorem lock_eq_none (blocked : m.lock recursive t = none) :
    ∃ u, 0 < m.levels u ∧ (recursive = true → u ≠ t) := by
  cases m with
  | free => exact nomatch blocked
  | held owner more =>
    refine ⟨owner, by simp [levels], fun again same => ?_⟩
    simp [lock, again, same] at blocked

theorem levels_of_lock_plain (locked : m.lock false t = some m') : m.levels t = 0 := by
  cases m with
  | free => rfl
  | held owner more => simp [lock] at locked

end OsMutex

variable {Tid D : Type} [DecidableEq Tid] {cfg : Config D} {t : Tid} {s s' : Shared Tid D}
  {pc pc' : Pc D} {e : Event} {es : List (Tid × Event)}
  {state : ThreadState Tid (Shared Tid D) (Pc D)}

/-- The preconditions of the call that a thread is in. -/
def Pc.Legal (pc : Pc D) : Prop :=
  match pc.point with
  | .drop guard => 0 < pc.droppable guard
  | .test _ | .initWait _ | .wait _ | .waiting _ => 0 < pc.guards + pc.acquired
  | _ => True

/-- What a step of `t` may do to the mutex. -/
inductive Moves (recursive : Bool) (t : Tid) (m : OsMutex Tid) (levels : Nat) (m' : OsMutex Tid)
    (levels' : Nat) : Prop
  | same : m' = m → levels' = levels → Moves recursive t m levels m' levels'
  | up : m.lock recursive t = some m' → levels' = levels + 1 → Moves recursive t m levels m' levels'
  | down : m' = m.unlock → levels = levels' + 1 → Moves recursive t m levels m' levels'

theorem levels_taken (c : Take) (pc : Pc D) :
    (pc.taken c).levels = pc.guards + pc.acquired + 1 := by
  rw [Pc.taken]
  split_ifs <;> simp [Pc.levels] <;> omega

theorem levels_dropped {guard : Bool} {pc : Pc D} (some_ : 0 < pc.droppable guard) :
    pc.guards + pc.acquired = (pc.dropped guard).levels + 1 := by
  rw [Pc.droppable] at some_
  rw [Pc.dropped]
  split_ifs at * <;> simp [Pc.levels] <;> omega

theorem CallStep.moves (moved : CallStep cfg t s pc e s' pc') (legal : pc.Legal) :
    Moves cfg.recursive t s.mutex pc.levels s'.mutex pc'.levels := by
  cases moved with
  | taken locked => exact .up locked (levels_taken _ _)
  | dropped => exact .down rfl (levels_dropped legal)
  | block => exact .down rfl (Nat.sub_add_cancel legal).symm
  | resumed _ locked | tested _ locked | resumeFailed _ _ _ _ locked =>
    exact .up locked (Nat.sub_add_cancel legal).symm
  | _ => exact .same rfl rfl

theorem CallStep.legal (moved : CallStep cfg t s pc e s' pc') (legal : pc.Legal) : pc'.Legal := by
  cases moved with
  | callDrop _ some_ | callWait some_ | callWaitUntil some_ => exact some_
  | @taken _ _ c => rcases c <;> trivial
  | @dropped _ _ guard => cases guard <;> trivial
  | _ => trivial

/-- A plain mutex is locked by one guard or one acquisition. -/
theorem CallStep.plain (moved : CallStep cfg t s pc e s' pc') (plain : cfg.recursive = false)
    (known : pc.levels = s.mutex.levels t) (once : pc.guards + pc.acquired ≤ 1) :
    pc'.guards + pc'.acquired ≤ 1 := by
  cases moved with
  | @taken g m c _ locked =>
    rw [plain] at locked
    rw [OsMutex.levels_of_lock_plain locked] at known
    have nothing : g + m = 0 := known
    rw [Pc.taken]
    split_ifs <;> simp <;> omega
  | @dropped g m guard =>
    have before : g + m ≤ 1 := once
    rw [Pc.dropped]
    split_ifs <;> simp <;> omega
  | _ => exact once

theorem CallStep.data (moved : CallStep cfg t s pc e s' pc') :
    s'.data = s.data ∨ 0 < pc.levels := by
  cases moved with
  | write _ some_ => exact .inr some_
  | _ => exact .inl rfl

structure Invariant (cfg : Config D) (state : ThreadState Tid (Shared Tid D) (Pc D)) : Prop where
  levels : ∀ t, (state.pc t).levels = state.shared.mutex.levels t
  legal : ∀ t, (state.pc t).Legal
  plain : cfg.recursive = false → ∀ t, (state.pc t).guards + (state.pc t).acquired ≤ 1

theorem Invariant.start : Invariant cfg ⟨(program Tid cfg).shared, fun _ => ⟨0, 0, .idle⟩⟩ :=
  ⟨fun _ => rfl, fun _ => trivial, fun _ _ => Nat.zero_le _⟩

theorem Moves.levels {recursive : Bool} {m m' : OsMutex Tid} {levels levels' : Nat}
    (moves : Moves recursive t m levels m' levels') (known : levels = m.levels t) :
    levels' = m'.levels t ∧ ∀ u, u ≠ t → m'.levels u = m.levels u := by
  cases moves with
  | same mutex count => exact ⟨by rw [count, mutex, known], fun _ _ => by rw [mutex]⟩
  | up locked count =>
    have changed := OsMutex.levels_lock locked
    refine ⟨?_, fun u other => by simpa [other] using changed u⟩
    rw [changed t, if_pos rfl, count, known]
  | down mutex count =>
    have changed := OsMutex.levels_unlock (m := m) (t := t) (by omega)
    rw [mutex]
    refine ⟨?_, fun u other => by simpa [other] using (changed u).symm⟩
    have own := changed t
    rw [if_pos rfl] at own
    omega

theorem Invariant.step (inv : Invariant cfg state)
    (moved : CallStep cfg t state.shared (state.pc t) e s' pc') :
    Invariant cfg ⟨s', Function.update state.pc t pc'⟩ := by
  have levels := (moved.moves (inv.legal t)).levels (inv.levels t)
  refine ⟨?_, ?_, fun plain => ?_⟩
  · exact (Function.forall_update_iff state.pc fun u p => p.levels = s'.mutex.levels u).mpr
      ⟨levels.1, fun u other => (inv.levels u).trans (levels.2 u other).symm⟩
  · exact (Function.forall_update_iff state.pc fun _ p => p.Legal).mpr
      ⟨moved.legal (inv.legal t), fun u _ => inv.legal u⟩
  · exact (Function.forall_update_iff state.pc fun _ p => p.guards + p.acquired ≤ 1).mpr
      ⟨moved.plain plain (inv.levels t) (inv.plain plain t), fun u _ => inv.plain plain u⟩

theorem invariant (run : (program Tid cfg).Run es state) : Invariant cfg state :=
  run.invariant (I := fun _ state => Invariant cfg state) .start
    fun _ _ _ _ _ _ inv moved => inv.step moved

theorem Invariant.exclusive (inv : Invariant cfg state) {t u : Tid}
    (ht : 0 < (state.pc t).levels) (hu : 0 < (state.pc u).levels) : t = u := by
  rw [inv.levels] at ht hu
  exact OsMutex.exclusive ht hu

/-- The thread that is in possession of the mutex finds the data as it left them. -/
theorem Invariant.undisturbed {next : ThreadState Tid (Shared Tid D) (Pc D)}
    {steps : List ((Tid × Event) × ThreadState Tid (Shared Tid D) (Pc D))}
    (inv : Invariant cfg state) (path : (program Tid cfg).Path state steps next)
    (others : ∀ step ∈ steps, step.1.1 ≠ t) (holds : 0 < (state.pc t).levels) :
    Invariant cfg next ∧ next.pc t = state.pc t ∧ next.shared.data = state.shared.data := by
  induction path with
  | refl => exact ⟨inv, rfl, rfl⟩
  | @step steps e middle last _ moved ih =>
    have apart : e.1 ≠ t := others (e, last) (by simp)
    obtain ⟨inv', same, data⟩ := ih fun step mem => others step (List.mem_append_left _ mem)
    cases moved with
    | @thread u _ _ _ moved =>
      refine ⟨inv'.step moved, (Function.update_of_ne apart.symm ..).trans same, ?_⟩
      refine Eq.trans ?_ data
      refine (CallStep.data moved).resolve_right fun other => apart ?_
      exact inv'.exclusive other (same ▸ holds)

theorem CallStep.blocked_of_busy (moved : CallStep cfg t s pc e s' pc') {c : Call}
    (returns : e = .ret c (.error .busy)) : s.mutex.lock cfg.recursive t = none := by
  cases moved with
  | busy _ blocked => exact blocked
  | @notTaken _ _ c ret _ other =>
    cases c <;> cases ret <;> simp_all [Call.outcome, Take.call, Take.tries]
  | @dropped _ _ guard => cases guard <;> simp [Call.outcome, dropCall] at returns
  | @taken _ _ c => cases c <;> simp [Call.outcome, Take.call] at returns
  | @notWaited _ _ u ret | @resumeFailed _ _ u _ ret =>
    cases u <;> cases ret <;> simp [Call.outcome, waitCall] at returns
  | @notNotified _ _ all ret =>
    cases all <;> cases ret <;> simp [Call.outcome, notifyCall] at returns
  | @notReleased _ _ ret => cases ret <;> simp [Call.outcome] at returns
  | _ => simp [Call.outcome] at returns

theorem op_take_ne_wait (c : Take) : c.call.op ≠ .wait := by
  cases c <;> exact nofun

theorem op_drop_ne_wait (guard : Bool) : (dropCall guard).op ≠ .wait := by
  cases guard <;> exact nofun

theorem op_notify_ne_wait (all : Bool) : (notifyCall all).op ≠ .wait := by
  cases all <;> exact nofun

/-- A wait returns to a thread that has what it had before. -/
theorem CallStep.waited (moved : CallStep cfg t s pc e s' pc') (legal : pc.Legal) {c : Call}
    {outcome : Outcome} (returns : e = .ret c outcome) (waits : c.op = .wait) :
    pc' = pc.back ∧ 0 < pc.back.levels := by
  cases moved with
  | waitNotCreated | holds | notWaited | resumed | resumeFailed => exact ⟨rfl, legal⟩
  | mutexNotCreated | taken | busy | notTaken =>
    obtain ⟨rfl, -⟩ := Event.ret.inj returns
    exact absurd waits (op_take_ne_wait _)
  | notifyNotCreated | notNotified =>
    obtain ⟨rfl, -⟩ := Event.ret.inj returns
    exact absurd waits (op_notify_ne_wait _)
  | dropped =>
    obtain ⟨rfl, -⟩ := Event.ret.inj returns
    exact absurd waits (op_drop_ne_wait _)
  | notReleased | notifyNobody | notifyOne | notifyAll =>
    obtain ⟨rfl, -⟩ := Event.ret.inj returns
    exact nomatch waits
  | _ => exact nomatch returns

theorem CallStep.tested_true (moved : CallStep cfg t s pc e s' pc') {pred : D → Bool}
    (point : pc.point = .test pred) (returns : e = .ret .waitUntil .success) :
    pred s'.data = true := by
  cases moved with
  | holds true_ =>
    obtain rfl := Point.test.inj point
    exact true_
  | _ => simp_all

/-- In every run the threads that have locked the mutex more often than they gave it back, for a
guard, an acquisition or a wait, are one thread at most, which has a plain mutex once; a lock is
refused as busy only if there is such a thread; a wait returns, also with an error, to a thread that
has what it had before; and after `wait_until` the predicate holds of the data, and the mutex is the
caller's, until the caller moves, whatever the others do. Who waits on a mutex that it locked twice
keeps everybody else out. -/
theorem monitor_safe (run : (program Tid cfg).Run es state) :
    (∀ t u, 0 < (state.pc t).levels → 0 < (state.pc u).levels → t = u) ∧
    (cfg.recursive = false → ∀ t, (state.pc t).guards + (state.pc t).acquired ≤ 1) ∧
    (∀ t c next, (program Tid cfg).Step state (t, .ret c (.error .busy)) next →
      ∃ u, 0 < (state.pc u).levels ∧ (cfg.recursive = true → u ≠ t)) ∧
    (∀ t c outcome next, c.op = .wait → (program Tid cfg).Step state (t, .ret c outcome) next →
      next.pc t = (state.pc t).back ∧ 0 < (next.pc t).levels) ∧
    (∀ t pred next steps last, (state.pc t).point = .test pred →
      (program Tid cfg).Step state (t, .ret .waitUntil .success) next →
      (program Tid cfg).Path next steps last → (∀ step ∈ steps, step.1.1 ≠ t) →
      pred last.shared.data = true ∧ 0 < (last.pc t).levels) ∧
    (∀ t until_, (state.pc t).point = .waiting until_ →
      2 ≤ (state.pc t).guards + (state.pc t).acquired → ∀ u, u ≠ t → (state.pc u).levels = 0) := by
  have inv := invariant run
  refine ⟨fun t u => inv.exclusive, inv.plain, ?_, ?_, ?_, ?_⟩
  · intro t c next moved
    obtain ⟨_, _, _, rfl, stepped, -⟩ := moved.inv
    obtain ⟨u, holds, other⟩ := OsMutex.lock_eq_none (CallStep.blocked_of_busy stepped rfl)
    exact ⟨u, by rwa [inv.levels], other⟩
  · intro t c outcome next waits moved
    obtain ⟨_, _, _, rfl, stepped, rfl⟩ := moved.inv
    obtain ⟨rfl, some_⟩ := CallStep.waited stepped (inv.legal t) rfl waits
    have here := Function.update_self t (state.pc t).back state.pc
    exact ⟨here, some_.trans_eq (congrArg Pc.levels here.symm)⟩
  · intro t pred next steps last point moved path others
    have inv' := invariant (run.step moved)
    obtain ⟨_, _, _, rfl, stepped, rfl⟩ := moved.inv
    have holds := CallStep.tested_true stepped point rfl
    obtain ⟨rfl, some_⟩ := CallStep.waited stepped (inv.legal t) rfl rfl
    have here := Function.update_self t (state.pc t).back state.pc
    have owns := some_.trans_eq (congrArg Pc.levels here.symm)
    obtain ⟨-, same, data⟩ := inv'.undisturbed path others owns
    exact ⟨(congrArg pred data).trans holds, owns.trans_eq (congrArg Pc.levels same.symm)⟩
  · intro t until_ point twice u other
    by_contra some_
    refine other (inv.exclusive (Nat.pos_of_ne_zero some_) ?_)
    simp only [Pc.levels, point]
    omega

/-- One of two threads locks a plain mutex, and the other one does not have it. -/
theorem monitor_locked : ∃ es state,
    (program Bool (⟨false, false, 0⟩ : Config Nat)).Run es state ∧ (state.pc true).levels = 1 ∧
      ¬ 0 < (state.pc false).levels := by
  have fresh := Program.Run.start (P := program Bool (⟨false, false, 0⟩ : Config Nat))
  have called := fresh.step (.thread (t := true) (.callTake (c := .lock)))
  have created := called.step (.thread (t := true) (.mutexCreated rfl))
  have locked := created.step (.thread (t := true) (.taken rfl))
  exact ⟨_, _, locked, rfl, fun some_ =>
    Bool.false_ne_true ((monitor_safe locked).1 false true some_ Nat.one_pos)⟩

end LibCxxExt.Threading.Monitor
