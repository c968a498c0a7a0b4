import LibCxxExt.Threading.Semaphore

/-! The permits of a semaphore are conserved in every run of any number of threads and under every
pattern of failures of the operating system. -/

namespace LibCxxExt.Threading.Semaphore

open LibCxxExt.ProofKit

/-- The thread is between locking and unlocking the mutex. -/
def Critical : Pc → Prop
  | .test _ | .decrement _ | .initWait _ | .wait _ | .check | .increment | .initNotify | .notify
  | .rollback _ | .unlock _ _ => True
  | _ => False

/-- What the call at `pc` has added to the counter without having returned success yet. -/
def pending : Pc → Int
  | .initNotify | .notify | .rollback _ | .unlock .release .ok => 1
  | .unlock (.acquire _) .ok => -1
  | _ => 0

/-- What a thread at `pc` knows about the counter. -/
def Knows (highest counter : Int) : Pc → Prop
  | .decrement _ | .initNotify | .notify | .rollback _ | .unlock .release .ok => 0 < counter
  | .initWait _ | .wait _ => counter = 0
  | .increment => counter < highest
  | _ => True

theorem pending_of_outside {pc : Pc} (out : ¬ Critical pc) : pending pc = 0 := by
  cases pc <;> simp_all [Critical, pending]

theorem knows_of_outside {pc : Pc} (out : ¬ Critical pc) (highest counter : Int) :
    Knows highest counter pc := by
  cases pc <;> simp_all [Critical, Knows]

variable {Tid : Type} [DecidableEq Tid] {cfg : Config} {t : Tid} {s s' : Shared Tid cfg.T}
  {pc pc' : Pc} {e : Event}

theorem outside_after (call : Call) (outcome : Outcome) : ¬ Critical (call.after outcome) := by
  rcases call with (_ | _) | _ <;> exact id

theorem critical_entry (call : Call) : Critical call.entry := by
  cases call <;> trivial

theorem CallStep.handover (moved : CallStep cfg t s pc e s' pc') :
    Handover Critical t s.mutex pc s'.mutex pc' := by
  cases moved with
  | locked free => exact free ▸ .enter id (critical_entry _)
  | resume _ free | resumeFailed _ _ free => exact free ▸ .enter id trivial
  | lockFailed => exact .outside id (outside_after _ _)
  | unlock => exact .leave trivial (outside_after _ _)
  | block => exact .leave trivial id
  | _ => first | exact .outside id id | exact .inside trivial trivial

theorem ofInt_sub_one {c : CInt cfg.T} (positive : 0 < c.val) :
    (CInt.ofInt cfg.T (c.val - 1)).val = c.val - 1 := by
  have low := cfg.T.lowest_nonpos
  have high := c.inRange.2
  exact IntTy.wrap_of_inRange ⟨by omega, by omega⟩

theorem ofInt_add_one {c : CInt cfg.T} (room : c.val < cfg.T.highest) :
    (CInt.ofInt cfg.T (c.val + 1)).val = c.val + 1 := by
  have low := c.inRange.1
  exact IntTy.wrap_of_inRange ⟨by omega, by omega⟩

/-- No step of a call takes the counter out of its range, so that `++` and `--` never wrap. -/
theorem CallStep.counter (moved : CallStep cfg t s pc e s' pc')
    (knows : Knows cfg.T.highest s.counter.val pc) (nonneg : 0 ≤ s.counter.val) :
    s'.counter.val = s.counter.val + e.change ∧ 0 ≤ s'.counter.val := by
  cases moved with
  | decrement | rollback =>
    dsimp only [Knows] at knows
    rw [ofInt_sub_one knows]
    exact ⟨rfl, by omega⟩
  | increment =>
    dsimp only [Knows] at knows
    rw [ofInt_add_one knows]
    exact ⟨rfl, by omega⟩
  | _ => exact ⟨by simp [Event.change], nonneg⟩

theorem CallStep.pending (moved : CallStep cfg t s pc e s' pc') :
    pending pc' = pending pc + e.change + (acquired [(t, e)] : Int) - released [(t, e)] := by
  cases moved with
  | @locked call => cases call <;> simp [Semaphore.pending, Event.change, acquired, released,
      Call.entry]
  | @unlock call outcome =>
    rw [pending_of_outside (outside_after call outcome)]
    rcases call with _ | _ <;> cases outcome <;>
      simp [Semaphore.pending, Event.change, acquired, released]
  | @lockFailed call e =>
    rw [pending_of_outside (outside_after call (.error e))]
    simp [Semaphore.pending, Event.change, acquired, released]
  | _ => simp [Semaphore.pending, Event.change, acquired, released]

theorem CallStep.knows (moved : CallStep cfg t s pc e s' pc')
    (knows : Knows cfg.T.highest s.counter.val pc) (nonneg : 0 ≤ s.counter.val) :
    Knows cfg.T.highest s'.counter.val pc' := by
  cases moved with
  | permit positive => exact positive
  | noPermit empty => exact le_antisymm (not_lt.mp empty) nonneg
  | room below => exact lt_of_le_of_ne s.counter.inRange.2 below
  | increment =>
    dsimp only [Knows] at knows ⊢
    rw [ofInt_add_one knows]
    omega
  | @locked call => cases call <;> trivial
  | @unlock call outcome => exact knows_of_outside (outside_after call outcome) _ _
  | @lockFailed call e => exact knows_of_outside (outside_after call (.error e)) _ _
  | _ => first | exact knows | trivial

theorem CallStep.counter_outside (moved : CallStep cfg t s pc e s' pc') (out : ¬ Critical pc) :
    s'.counter = s.counter := by
  cases moved <;> first | rfl | exact absurd trivial out

def InCall : Pc → Prop
  | .idle | .makeGuard _ => False
  | _ => True

theorem not_inCall_after (call : Call) (outcome : Outcome) : ¬ InCall (call.after outcome) := by
  rcases call with (_ | _) | _ <;> exact id

theorem CallStep.change (moved : CallStep cfg t s pc e s' pc') (inside : InCall pc') :
    (∃ call, e = .call call) ∧ Semaphore.pending pc' = 0 ∨
      InCall pc ∧ (∀ call, e ≠ .call call) ∧
        Semaphore.pending pc' = Semaphore.pending pc + e.change := by
  have step := moved.pending
  cases moved with
  | @unlock call outcome => exact absurd inside (not_inCall_after call outcome)
  | @lockFailed call e => exact absurd inside (not_inCall_after call (.error e))
  | _ => simp_all [InCall, Semaphore.pending, Event.change, acquired, released]

theorem callChange_call (t : Tid) (es : List (Tid × Event)) (call : Call) :
    callChange t (es ++ [(t, .call call)]) = 0 := by
  simp [callChange, Program.eventsOf_same, List.foldl_append]

theorem callChange_step (t : Tid) (es : List (Tid × Event)) {e : Event}
    (inside : ∀ call, e ≠ .call call) :
    callChange t (es ++ [(t, e)]) = callChange t es + e.change := by
  cases e <;> simp_all [callChange, Program.eventsOf_same, List.foldl_append]

theorem callChange_other {t u : Tid} (other : u ≠ t) (es : List (Tid × Event)) (e : Event) :
    callChange t (es ++ [(u, e)]) = callChange t es := by
  rw [callChange, Program.eventsOf_other other, callChange]

/-- The permits are accounted for in every state. -/
structure Invariant (cfg : Config) (es : List (Tid × Event))
    (state : ThreadState Tid (Shared Tid cfg.T) Pc) : Prop where
  owned : Owned Critical state.shared.mutex state.pc
  nonneg : 0 ≤ state.shared.counter.val
  knows : ∀ t, Knows cfg.T.highest state.shared.counter.val (state.pc t)
  ledger : state.shared.counter.val = cfg.initial.val - acquired es + released es +
    weight pending state.shared.mutex state.pc
  change : ∀ t, InCall (state.pc t) → callChange t es = pending (state.pc t)

theorem Invariant.start : Invariant cfg [] ⟨(program Tid cfg).shared, fun _ => Pc.idle⟩ where
  owned := fun _ => ⟨False.elim, nofun⟩
  nonneg := cfg.nonneg
  knows := fun _ => trivial
  ledger := by simp [acquired, released, weight, program]
  change := fun _ inside => inside.elim

theorem Invariant.step {es : List (Tid × Event)} {state : ThreadState Tid (Shared Tid cfg.T) Pc}
    (inv : Invariant cfg es state)
    (moved : CallStep cfg t state.shared (state.pc t) e s' pc') :
    Invariant cfg (es ++ [(t, e)]) ⟨s', Function.update state.pc t pc'⟩ := by
  have counter := moved.counter (inv.knows t) inv.nonneg
  refine ⟨inv.owned.update moved.handover, counter.2, ?_, ?_, ?_⟩
  · refine (Function.forall_update_iff state.pc _).mpr
      ⟨moved.knows (inv.knows t) inv.nonneg, fun u other => ?_⟩
    by_cases critical : Critical (state.pc u)
    · have owner := (inv.owned u).mp critical
      have out : ¬ Critical (state.pc t) := fun h =>
        other (Option.some.inj (owner.symm.trans ((inv.owned t).mp h)))
      rw [moved.counter_outside out]
      exact inv.knows u
    · exact knows_of_outside critical _ _
  · have contributed := inv.owned.weight_update Semaphore.pending
      (fun _ => pending_of_outside) moved.handover
    have pending := moved.pending
    have ledger := inv.ledger
    have counted : acquired (es ++ [(t, e)]) = acquired es + acquired [(t, e)] ∧
        released (es ++ [(t, e)]) = released es + released [(t, e)] :=
      ⟨List.countP_append, List.countP_append⟩
    rw [counted.1, counted.2]
    dsimp only
    omega
  · refine (Function.forall_update_iff state.pc fun u p =>
      InCall p → callChange u _ = Semaphore.pending p).mpr ⟨fun inside => ?_, fun u other => ?_⟩
    · rcases moved.change inside with ⟨⟨call, rfl⟩, none⟩ | ⟨before, within, pending⟩
      · rw [callChange_call, none]
      · rw [callChange_step t es within, inv.change t before, pending]
    · rw [callChange_other other.symm]
      exact inv.change u

theorem invariant {es : List (Tid × Event)} {state : ThreadState Tid (Shared Tid cfg.T) Pc}
    (run : (program Tid cfg).Run es state) : Invariant cfg es state :=
  run.invariant .start fun _ _ _ _ _ _ inv moved => inv.step moved

theorem pending_le {highest counter : Int} (knows : Knows highest counter pc)
    (nonneg : 0 ≤ counter) : pending pc ≤ counter := by
  cases pc with
  | unlock call outcome =>
    rcases call with _ | _ <;> cases outcome <;> simp [pending, Knows] at knows ⊢ <;> omega
  | _ =>
    simp [pending, Knows] at knows ⊢
    omega

theorem weight_pending_le {es : List (Tid × Event)}
    {state : ThreadState Tid (Shared Tid cfg.T) Pc} (inv : Invariant cfg es state) :
    weight pending state.shared.mutex state.pc ≤ state.shared.counter.val := by
  cases state.shared.mutex with
  | none => exact inv.nonneg
  | some t => exact pending_le (inv.knows t) inv.nonneg

theorem unlocks_of_ret {state next : ThreadState Tid (Shared Tid cfg.T) Pc} {call : Call}
    {outcome : Outcome} (moved : (program Tid cfg).Step state (t, .ret call outcome) next) :
    state.pc t = .unlock call outcome ∨ ∃ e, state.pc t = .lockFailed call e := by
  obtain ⟨pc, _, _, at_, step, -⟩ := moved.inv
  cases step with
  | unlock => exact .inl at_
  | lockFailed => exact .inr ⟨_, at_⟩

/-- Permits are conserved: outside the critical section the counter is the initial one, less the
successful acquires, plus the successful releases; it never leaves its range; a call that returns an
error has added nothing to it; and acquires succeed only on permits that were there. -/
theorem permits_conserved {es : List (Tid × Event)}
    {state : ThreadState Tid (Shared Tid cfg.T) Pc} (run : (program Tid cfg).Run es state) :
    ((∀ t, ¬ Critical (state.pc t)) →
      state.shared.counter.val = cfg.initial.val - acquired es + released es) ∧
    (0 ≤ state.shared.counter.val ∧ state.shared.counter.val ≤ cfg.T.highest) ∧
    (∀ t call err next, (program Tid cfg).Step state (t, .ret call (.error err)) next →
      callChange t es = 0) ∧
    (acquired es : Int) ≤ cfg.initial.val + released es := by
  have inv := invariant run
  refine ⟨fun outside => ?_, ⟨inv.nonneg, state.shared.counter.inRange.2⟩, ?_, ?_⟩
  · have free : state.shared.mutex = none := by
      cases h : state.shared.mutex with
      | none => rfl
      | some t => exact absurd ((inv.owned t).mpr h) (outside t)
    rw [inv.ledger, free, weight, Option.elim_none, Int.add_zero]
  · intro t call err next moved
    have kept := inv.change t
    rcases unlocks_of_ret moved with at_ | ⟨e, at_⟩
    · rw [at_] at kept
      rw [kept trivial]
      rcases call with _ | _ <;> rfl
    · rw [at_] at kept
      exact kept trivial
  · have ledger := inv.ledger
    have := weight_pending_le inv
    omega

/-- `binary_semaphore`, on a system whose waits fail early or not at all. -/
def binary : Config where
  T := ⟨.w8, false⟩
  initial := ⟨1, by decide⟩
  nonneg := by decide
  lateWaitFailure := false

/-- One of two threads takes the permit of a binary semaphore. -/
theorem binary_acquired : ∃ es state, (program Bool binary).Run es state ∧ acquired es = 1 ∧
    state.shared.counter.val = 0 ∧ (acquired es : Int) ≤ binary.initial.val + released es := by
  have fresh := Program.Run.start (P := program Bool binary)
  have called := fresh.step (.thread (t := true) (.call (c := .acquire false)))
  have created := called.step (.thread (t := true) (.mutexCreated rfl))
  have locked := created.step (.thread (t := true) (.locked rfl))
  have tested := locked.step (.thread (t := true) (.permit (by decide)))
  have taken := tested.step (.thread (t := true) .decrement)
  have unlocked := taken.step (.thread (t := true) .unlock)
  exact ⟨_, _, unlocked, rfl, rfl, (permits_conserved unlocked).2.2.2⟩

end LibCxxExt.Threading.Semaphore
