import LibCxxExt.Threading.SemaphorePermits

/-! No wakeup of a semaphore is lost. While some thread is blocked, the woken threads that have not
tested the counter again are at least as many as the permits, up to one permit that the thread in
the critical section still moves. -/

namespace LibCxxExt.Threading.Semaphore

open LibCxxExt.ProofKit

/-- What a thread at `pc` answers for beside the woken threads. -/
def slack : Pc → Int
  | .test _ | .decrement _ | .initNotify | .notify | .rollback _ => 1
  | _ => 0

theorem slack_of_outside {pc : Pc} (out : ¬ Critical pc) : slack pc = 0 := by
  cases pc <;> simp_all [Critical, slack]

theorem slack_nonneg (pc : Pc) : 0 ≤ slack pc := by
  cases pc <;> simp [slack]

variable {Tid : Type} [DecidableEq Tid] {cfg : Config} {t u : Tid} {s s' : Shared Tid cfg.T}
  {pc pc' : Pc} {e : Event}

theorem after_ne_waiting (call : Call) (outcome : Outcome) (guarded : Bool) :
    call.after outcome ≠ .waiting guarded := by
  rcases call with (_ | _) | _ <;> exact nofun

theorem entry_ne_waiting (call : Call) (guarded : Bool) : call.entry ≠ .waiting guarded := by
  cases call <;> exact nofun

/-- The thread is in the condition variable exactly when it waits. -/
def Queued (q : WaitSet Tid) (t : Tid) (pc : Pc) : Prop :=
  t ∈ q ↔ ∃ guarded, pc = .waiting guarded

theorem CallStep.queued (moved : CallStep cfg t s pc e s' pc') (queued : Queued s.waiters t pc) :
    Queued s'.waiters t pc' := by
  cases moved with
  | block => simp [Queued, WaitSet.mem_block]
  | spurious here => simpa [Queued, WaitSet.mem_wake _ here] using queued
  | resume here | resumeFailed _ here => simp [Queued, WaitSet.mem_leave _ here]
  | notifyOne here => simpa [Queued, WaitSet.mem_wake _ here] using queued
  | _ => simpa [Queued, after_ne_waiting, entry_ne_waiting] using queued

theorem CallStep.queue_other (moved : CallStep cfg t s pc e s' pc') (other : u ≠ t) :
    u ∈ s'.waiters ↔ u ∈ s.waiters := by
  cases moved with
  | block => simp [WaitSet.mem_block, other]
  | spurious here | notifyOne here => exact WaitSet.mem_wake _ here
  | resume here | resumeFailed _ here => simp [WaitSet.mem_leave _ here, other]
  | _ => rfl

/-- While a thread is blocked, the woken threads answer for every permit, up to `w`. -/
def Enough (s : Shared Tid cfg.T) (w : Int) : Prop :=
  s.waiters.blocked.Nonempty → s.counter.val ≤ s.waiters.woken.card + w

theorem CallStep.enough (early : cfg.lateWaitFailure = false)
    (moved : CallStep cfg t s pc e s' pc') (knows : Knows cfg.T.highest s.counter.val pc)
    (nonneg : 0 ≤ s.counter.val) {w : Int} (rest : 0 ≤ w - slack pc) (enough : Enough s w) :
    Enough s' (w + slack pc' - slack pc) := by
  have counter := (moved.counter knows nonneg).1
  intro somebody
  cases moved with
  | notifyNobody none => simp [none] at somebody
  | resumeFailed late => simp [early] at late
  | block =>
    dsimp only [Knows, slack] at knows rest ⊢
    omega
  | noPermit empty =>
    dsimp only [slack] at rest ⊢
    omega
  | spurious here | notifyOne here =>
    have before := enough ⟨_, here⟩
    have one_more := WaitSet.card_wake _ here
    dsimp only [slack]
    omega
  | resume =>
    have before := enough somebody
    have one_less := WaitSet.card_leave s.waiters (t := t)
    dsimp only [slack]
    omega
  | @locked call =>
    have before := enough somebody
    have := slack_nonneg call.entry
    dsimp only [slack] at this ⊢
    omega
  | @unlock call outcome | @lockFailed call outcome =>
    have before := enough somebody
    rw [slack_of_outside (outside_after call _)]
    dsimp only [slack]
    omega
  | decrement | rollback | increment =>
    have before := enough somebody
    dsimp only [slack, Event.change] at counter ⊢
    omega
  | _ =>
    have before := enough somebody
    dsimp only [slack]
    omega

/-- The threads in the condition variable are the waiting ones and answer for the permits. -/
structure WaitInvariant (cfg : Config) (state : ThreadState Tid (Shared Tid cfg.T) Pc) : Prop where
  queued : ∀ t, Queued state.shared.waiters t (state.pc t)
  enough : Enough state.shared (weight slack state.shared.mutex state.pc)

theorem WaitInvariant.start : WaitInvariant cfg ⟨(program Tid cfg).shared, fun _ => Pc.idle⟩ where
  queued := fun t => by simp [Queued, program, WaitSet.mem_iff, WaitSet.empty]
  enough := fun somebody => by simp [program, WaitSet.empty] at somebody

theorem WaitInvariant.step {es : List (Tid × Event)}
    {state : ThreadState Tid (Shared Tid cfg.T) Pc} (early : cfg.lateWaitFailure = false)
    (inv : Invariant cfg es state) (waits : WaitInvariant cfg state)
    (moved : CallStep cfg t state.shared (state.pc t) e s' pc') :
    WaitInvariant cfg ⟨s', Function.update state.pc t pc'⟩ := by
  constructor
  · refine (Function.forall_update_iff state.pc _).mpr
      ⟨moved.queued (waits.queued t), fun u other => ?_⟩
    exact (moved.queue_other other).trans (waits.queued u)
  · have below := inv.owned.le_weight slack (fun _ => slack_of_outside) slack_nonneg t
    have answered := moved.enough early (inv.knows t) inv.nonneg (by omega) waits.enough
    rwa [← inv.owned.weight_update slack (fun _ => slack_of_outside) moved.handover]
      at answered

theorem waitInvariant {es : List (Tid × Event)} {state : ThreadState Tid (Shared Tid cfg.T) Pc}
    (early : cfg.lateWaitFailure = false) (run : (program Tid cfg).Run es state) :
    Invariant cfg es state ∧ WaitInvariant cfg state :=
  run.invariant (P := program Tid cfg)
    (I := fun es state => Invariant cfg es state ∧ WaitInvariant cfg state)
    ⟨.start, .start⟩ fun _ _ _ _ _ _ both moved =>
      ⟨both.1.step moved, both.2.step early both.1 moved⟩

/-- No wakeup is lost: when the mutex is free and a thread is blocked, the woken threads that have
not tested the counter again are at least as many as the permits. -/
theorem no_lost_wakeup {es : List (Tid × Event)} {state : ThreadState Tid (Shared Tid cfg.T) Pc}
    (early : cfg.lateWaitFailure = false) (run : (program Tid cfg).Run es state)
    (free : state.shared.mutex = none) :
    (∀ t, (∃ guarded, state.pc t = .waiting guarded) ↔
      t ∈ state.shared.waiters.blocked ∨ t ∈ state.shared.waiters.woken) ∧
    (∀ t guarded, state.pc t ≠ .test guarded) ∧
    (state.shared.waiters.blocked.Nonempty →
      state.shared.counter.val ≤ state.shared.waiters.woken.card) ∧
    ¬ (0 < state.shared.counter.val ∧ state.shared.waiters.blocked.Nonempty ∧
      state.shared.waiters.woken = ∅) := by
  obtain ⟨inv, waits⟩ := waitInvariant early run
  have answered : state.shared.waiters.blocked.Nonempty →
      state.shared.counter.val ≤ state.shared.waiters.woken.card := fun somebody => by
    simpa [free, weight] using waits.enough somebody
  refine ⟨fun t => (waits.queued t).symm, fun t guarded testing => ?_, answered, ?_⟩
  · have owner := (inv.owned t).mp (testing ▸ trivial)
    simp [free] at owner
  · rintro ⟨permit, somebody, none⟩
    have := answered somebody
    rw [none, Finset.card_empty] at this
    omega

/-- Two of three threads wait for a permit that the third one puts back. -/
theorem binary_woken : ∃ es state, (program (Fin 3) binary).Run es state ∧
    state.shared.counter.val = 1 ∧ state.shared.waiters.blocked.Nonempty ∧
    state.shared.counter.val ≤ state.shared.waiters.woken.card := by
  have fresh := Program.Run.start (P := program (Fin 3) binary)
  have called := fresh.step (.thread (t := 0) (.call (c := .acquire false)))
  have created := called.step (.thread (t := 0) (.mutexCreated rfl))
  have locked := created.step (.thread (t := 0) (.locked rfl))
  have tested := locked.step (.thread (t := 0) (.permit (by decide)))
  have taken := tested.step (.thread (t := 0) .decrement)
  have acquired := taken.step (.thread (t := 0) .unlock)
  have called := acquired.step (.thread (t := 1) (.call (c := .acquire false)))
  have ready := called.step (.thread (t := 1) (.mutexReady rfl))
  have locked := ready.step (.thread (t := 1) (.locked rfl))
  have tested := locked.step (.thread (t := 1) (.noPermit (by decide)))
  have created := tested.step (.thread (t := 1) (.waitCreated rfl))
  have one_waits := created.step (.thread (t := 1) .block)
  have called := one_waits.step (.thread (t := 2) (.call (c := .acquire true)))
  have ready := called.step (.thread (t := 2) (.mutexReady rfl))
  have locked := ready.step (.thread (t := 2) (.locked rfl))
  have tested := locked.step (.thread (t := 2) (.noPermit (by decide)))
  have ready := tested.step (.thread (t := 2) (.waitReady rfl))
  have two_wait := ready.step (.thread (t := 2) .block)
  have called := two_wait.step (.thread (t := 0) (.call (c := .release)))
  have ready := called.step (.thread (t := 0) (.mutexReady rfl))
  have locked := ready.step (.thread (t := 0) (.locked rfl))
  have checked := locked.step (.thread (t := 0) (.room (by decide)))
  have put := checked.step (.thread (t := 0) .increment)
  have ready := put.step (.thread (t := 0) (.notifyReady rfl))
  have notified := ready.step (.thread (t := 0) (.notifyOne (u := 1) (by decide)))
  have released := notified.step (.thread (t := 0) .unlock)
  exact ⟨_, _, released, rfl, ⟨2, by decide⟩,
    (no_lost_wakeup rfl released rfl).2.2.1 ⟨2, by decide⟩⟩

end LibCxxExt.Threading.Semaphore
