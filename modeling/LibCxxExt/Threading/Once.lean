import LibCxxExt.ProofKit.Interleaving

/-! `sys::once` (`Once.h`). Every operation on an atomic flag is one step, and any number of threads
interleave their calls of both `call_once` overloads. At most one functor runs at a time, at most
one finishes successfully, and the flag `initialized` follows it. -/

namespace LibCxxExt.Threading.Once

open LibCxxExt.ProofKit

/-- The two flags of a `once`. -/
structure Flags where
  initialized : Bool
  busy : Bool
deriving DecidableEq

/-- The overload of `call_once` for functors without a `result`, and the one for functors with. -/
inductive Overload
  | plain
  | result
deriving DecidableEq

/-- How a functor ends, and a call with it. -/
inductive Outcome
  | success
  | error
  | threw
deriving DecidableEq

/-- Only the second overload sees errors. -/
def Overload.Allows : Overload → Outcome → Prop
  | plain, outcome => outcome ≠ .error
  | result, _ => True

/-- Where a thread stands in `call_once`, before the step of that name. -/
inductive Pc
  | idle
  | isCompleted (f : Overload)
  | acquireBusy (f : Overload)
  | recheck (f : Overload)
  | giveUp (f : Overload)
  | invoke (f : Overload)
  | running (f : Overload)
  | complete (f : Overload)
  | cleanup (f : Overload) (outcome : Outcome)
  | leave (f : Overload) (outcome : Outcome)
deriving DecidableEq

inductive Event
  | call (f : Overload)
  | test
  | start
  | finish (outcome : Outcome)
  | complete
  | release (outcome : Outcome)
  | ret (outcome : Outcome)
deriving DecidableEq

/-- One atomic step of `call_once`, the steps of `already_consumed` included. -/
inductive CallStep : Flags → Pc → Event → Flags → Pc → Prop
  | call {flags f} : CallStep flags .idle (.call f) flags (.isCompleted f)
  | completed {flags f} : flags.initialized = true →
    CallStep flags (.isCompleted f) .test flags (.leave f .success)
  | incomplete {flags f} : flags.initialized = false →
    CallStep flags (.isCompleted f) .test flags (.acquireBusy f)
  | yield {flags f} : flags.busy = true →
    CallStep flags (.acquireBusy f) .test flags (.acquireBusy f)
  | acquire {flags f} : flags.busy = false →
    CallStep flags (.acquireBusy f) .test { flags with busy := true } (.recheck f)
  | consumed {flags f} : flags.initialized = true →
    CallStep flags (.recheck f) .test flags (.giveUp f)
  | unconsumed {flags f} : flags.initialized = false →
    CallStep flags (.recheck f) .test flags (.invoke f)
  | giveUp {flags f} :
    CallStep flags (.giveUp f) .test { flags with busy := false } (.leave f .success)
  | start {flags f} : CallStep flags (.invoke f) .start flags (.running f)
  | succeed {flags f} :
    CallStep flags (.running f) (.finish .success) flags (.complete f)
  | fail {flags f outcome} : outcome ≠ .success → f.Allows outcome →
    CallStep flags (.running f) (.finish outcome) flags (.cleanup f outcome)
  | complete {flags f} : CallStep flags (.complete f) .complete
      { flags with initialized := true } (.cleanup f .success)
  -- The deferred clear of `busy`, on every exit.
  | release {flags f outcome} : CallStep flags (.cleanup f outcome) (.release outcome)
      { flags with busy := false } (.leave f outcome)
  | ret {flags f outcome} : CallStep flags (.leave f outcome) (.ret outcome) flags .idle

/-- Threads that call `call_once` on one fresh `once`. -/
def program (Tid : Type) : Program Tid Flags Pc Event where
  shared := ⟨false, false⟩
  start := .idle
  step _ := CallStep

def Holding : Pc → Prop
  | .recheck _ | .giveUp _ | .invoke _ | .running _ | .complete _ | .cleanup _ _ => True
  | _ => False

def Executing : Pc → Prop
  | .running _ => True
  | _ => False

variable {Tid : Type}

/-- The functors that have finished successfully. -/
def successes (es : List (Tid × Event)) : Nat :=
  es.countP fun e => e.2 = .finish .success

theorem successes_snoc (es : List (Tid × Event)) (t : Tid) (e : Event) :
    successes (es ++ [(t, e)]) = successes es + if e = .finish .success then 1 else 0 := by
  simp [successes, List.countP_append, List.countP_singleton]

/-- What a thread at `pc` knows about the flag and the number of functors that finished
successfully. -/
def Knows (initialized : Bool) (successes : Nat) : Pc → Prop
  | .recheck _ => initialized = false → successes = 0
  | .invoke _ | .running _ | .cleanup _ .error | .cleanup _ .threw =>
    initialized = false ∧ successes = 0
  | .complete _ => initialized = false ∧ successes = 1
  | .giveUp _ | .cleanup _ .success | .leave _ .success => initialized = true
  | _ => True

/-- The invariant of the two flags. -/
structure Invariant (es : List (Tid × Event)) (s : ThreadState Tid Flags Pc) : Prop where
  one : AtMostOne Holding s.pc
  busy : ∀ t, Holding (s.pc t) → s.shared.busy = true
  knows : ∀ t, Knows s.shared.initialized (successes es) (s.pc t)
  set : s.shared.initialized = true → successes es = 1
  clear : s.shared.initialized = false → (∀ t f, s.pc t ≠ .complete f) → successes es = 0

section Steps

variable {flags flags' : Flags} {pc pc' : Pc} {e : Event} {n : Nat}

theorem CallStep.initialized_stays (moved : CallStep flags pc e flags' pc')
    (set : flags.initialized = true) : flags'.initialized = true := by
  cases moved <;> first | exact set | rfl

/-- A thread without `busy` changes neither `initialized` nor the functors that finished, and does
not release `busy`. -/
theorem CallStep.outside (moved : CallStep flags pc e flags' pc') (out : ¬ Holding pc) :
    flags'.initialized = flags.initialized ∧ e ≠ .finish .success ∧
      (flags.busy = true → flags'.busy = true) := by
  cases moved <;> simp_all [Holding]

theorem CallStep.not_finish (moved : CallStep flags pc e flags' pc')
    (knows : Knows flags.initialized n pc) (set : flags.initialized = true) :
    e ≠ .finish .success := by
  cases moved <;> simp_all [Knows]

theorem CallStep.enters (moved : CallStep flags pc e flags' pc') (holds : Holding pc') :
    Holding pc ∨ flags.busy = false := by
  cases moved <;> simp_all [Holding]

theorem CallStep.keeps_busy (moved : CallStep flags pc e flags' pc') (holds : Holding pc')
    (busy : Holding pc → flags.busy = true) : flags'.busy = true := by
  cases moved <;> simp_all [Holding]

theorem CallStep.sets (moved : CallStep flags pc e flags' pc')
    (unset : flags.initialized = false) (set : flags'.initialized = true) :
    (∃ f, pc = .complete f) ∧ e ≠ .finish .success := by
  cases moved <;> simp_all

theorem CallStep.completes (moved : CallStep flags pc e flags' pc') :
    (∀ f, pc = .complete f → flags'.initialized = true) ∧
      (e = .finish .success → ∃ f, pc' = .complete f) := by
  cases moved <;> simp_all

/-- Knowledge is passed on from one program counter to the next. -/
theorem CallStep.knows (moved : CallStep flags pc e flags' pc')
    (knows : Knows flags.initialized n pc)
    (free : flags.busy = false → flags.initialized = false → n = 0) :
    Knows flags'.initialized (n + if e = .finish .success then 1 else 0) pc' := by
  cases moved with
  | @release _ outcome => cases outcome <;> simp_all [Knows]
  | @fail _ outcome => cases outcome <;> simp_all [Knows]
  | _ => simp_all [Knows]

end Steps

theorem successes_stays {es : List (Tid × Event)} {t : Tid} {e : Event}
    (other : e ≠ .finish .success) : successes (es ++ [(t, e)]) = successes es := by
  rw [successes_snoc, if_neg other, Nat.add_zero]

theorem Knows.frame {es : List (Tid × Event)} {flags flags' : Flags} {pc pc' other : Pc} {t : Tid}
    {e : Event} (moved : CallStep flags pc e flags' pc')
    (theirs : Knows flags.initialized (successes es) other)
    (exclusive : ¬ (Holding pc ∧ Holding other)) :
    Knows flags'.initialized (successes (es ++ [(t, e)])) other := by
  by_cases holds : Holding pc
  · have out : ¬ Holding other := fun h => exclusive ⟨holds, h⟩
    match other, out, theirs with
    | .leave _ .success, _, set => exact moved.initialized_stays set
    | .leave _ .error, _, _ | .leave _ .threw, _, _ | .idle, _, _ | .isCompleted _, _, _
    | .acquireBusy _, _, _ => trivial
    | .recheck _, out, _ | .giveUp _, out, _ | .invoke _, out, _ | .running _, out, _
    | .complete _, out, _ | .cleanup _ _, out, _ => exact absurd trivial out
  · obtain ⟨same, unfinished, _⟩ := moved.outside holds
    rwa [same, successes_stays unfinished]

theorem Invariant.start : Invariant ([] : List (Tid × Event)) ⟨⟨false, false⟩, fun _ => .idle⟩ where
  one := fun _ _ h => h.elim
  busy := fun _ h => h.elim
  knows := fun _ => trivial
  set := nofun
  clear := fun _ _ => rfl

theorem successes_le_one {es : List (Tid × Event)} {s : ThreadState Tid Flags Pc}
    (inv : Invariant es s) : successes es ≤ 1 := by
  cases set : s.shared.initialized with
  | true => exact Nat.le_of_eq (inv.set set)
  | false =>
    by_cases finished : ∃ t f, s.pc t = .complete f
    · obtain ⟨t, f, at_⟩ := finished
      have known := inv.knows t
      rw [at_] at known
      exact Nat.le_of_eq known.2
    · rw [inv.clear set fun t f at_ => finished ⟨t, f, at_⟩]
      exact Nat.zero_le 1

theorem exists_success {es : List (Tid × Event)} {s : ThreadState Tid Flags Pc}
    (inv : Invariant es s) (set : s.shared.initialized = true) :
    ∃ t, (t, .finish .success) ∈ es := by
  have one := inv.set set
  obtain ⟨⟨t, e⟩, mem, finish⟩ := List.countP_pos_iff.mp (one ▸ Nat.one_pos)
  exact ⟨t, by simpa [← of_decide_eq_true finish] using mem⟩

variable [DecidableEq Tid]

theorem Invariant.step {es : List (Tid × Event)} {s : ThreadState Tid Flags Pc} {t : Tid}
    {e : Event} {flags : Flags} {pc : Pc} (inv : Invariant es s)
    (moved : CallStep s.shared (s.pc t) e flags pc) :
    Invariant (es ++ [(t, e)]) ⟨flags, Function.update s.pc t pc⟩ := by
  have free : s.shared.busy = false → ∀ u, ¬ Holding (s.pc u) := fun clear u holds => by
    simp [inv.busy u holds] at clear
  have none : s.shared.busy = false → s.shared.initialized = false → successes es = 0 :=
    fun clear unset => inv.clear unset fun u f at_ => free clear u (by simp [at_, Holding])
  refine ⟨?_, ?_, ?_, ?_, ?_⟩
  · by_cases holds : Holding (s.pc t)
    · exact inv.one.update fun _ => holds
    · by_cases enters : Holding pc
      · exact AtMostOne.enter (free ((moved.enters enters).resolve_left holds))
      · exact inv.one.update fun h => absurd h enters
  · refine (Function.forall_update_iff s.pc fun _ p => Holding p → flags.busy = true).mpr
      ⟨fun holds => moved.keeps_busy holds (inv.busy t), fun u other holds => ?_⟩
    have out : ¬ Holding (s.pc t) := fun h => other (inv.one u t holds h)
    exact (moved.outside out).2.2 (inv.busy u holds)
  · refine (Function.forall_update_iff s.pc _).mpr ⟨?_, fun u other => ?_⟩
    · rw [successes_snoc]
      exact moved.knows (inv.knows t) none
    · exact (inv.knows u).frame moved fun both => other (inv.one u t both.2 both.1)
  · intro set
    cases before : s.shared.initialized with
    | true => rw [successes_stays (moved.not_finish (inv.knows t) before), inv.set before]
    | false =>
      obtain ⟨⟨f, at_⟩, other⟩ := moved.sets before set
      have known := inv.knows t
      rw [at_] at known
      rw [successes_stays other, known.2]
  · intro (unset : flags.initialized = false) (nobody : ∀ u f, Function.update s.pc t pc u ≠ _)
    have before : s.shared.initialized = false := by
      by_contra set
      simp [moved.initialized_stays (by simpa using set)] at unset
    have still : ∀ u f, s.pc u ≠ .complete f := fun u f at_ => by
      by_cases h : u = t
      · subst h
        simp [moved.completes.1 f at_] at unset
      · exact nobody u f (by rw [Function.update_of_ne h, at_])
    have unfinished : e ≠ .finish .success := fun h => by
      obtain ⟨f, at_⟩ := moved.completes.2 h
      exact nobody t f (by rw [Function.update_self, at_])
    rw [successes_stays unfinished, inv.clear before still]

theorem invariant {es : List (Tid × Event)} {s : ThreadState Tid Flags Pc}
    (run : (program Tid).Run es s) : Invariant es s :=
  run.invariant .start fun _ _ _ _ _ _ inv moved => inv.step moved

/-- What a thread has done last when its functor failed. -/
def Failed (own : List Event) : Pc → Prop
  | .cleanup _ outcome => outcome ≠ .success → [.finish outcome] <:+ own
  | .leave _ outcome => outcome ≠ .success → [.finish outcome, .release outcome] <:+ own
  | _ => True

theorem CallStep.failed {flags flags' : Flags} {pc pc' : Pc} {e : Event} {own : List Event}
    (moved : CallStep flags pc e flags' pc') (failed : Failed own pc) :
    Failed (own ++ [e]) pc' := by
  cases moved with
  | fail _ _ => exact fun _ => List.suffix_append own _
  | release =>
    intro failure
    obtain ⟨before, rfl⟩ := failed failure
    exact ⟨before, by simp⟩
  | _ => simp [Failed]

theorem failed_of_run {es : List (Tid × Event)} {s : ThreadState Tid Flags Pc}
    (run : (program Tid).Run es s) : ∀ t, Failed (Program.eventsOf t es) (s.pc t) :=
  run.own (P := program Tid) (R := Failed) trivial fun _ _ _ _ _ _ _ => CallStep.failed

/-- What `once` promises in a state `s` that the steps `es` lead to, and of the step after it. -/
structure Guarantees (es : List (Tid × Event)) (s : ThreadState Tid Flags Pc) : Prop where
  oneExecuting : AtMostOne Executing s.pc
  oneSuccess : successes es ≤ 1
  noStartAfter : ∀ pre post t u, es = pre ++ (t, .finish .success) :: post → (u, .start) ∉ post
  setAfterSuccess : s.shared.initialized = true → ∃ t, (t, .finish .success) ∈ es
  neverCleared : ∀ e s', (program Tid).Step s e s' → s.shared.initialized = true →
    s'.shared.initialized = true
  failureUnset : ∀ t f outcome, outcome ≠ .success → s.pc t = .cleanup f outcome →
    s.shared.initialized = false
  failureReleases : ∀ t outcome s', outcome ≠ .success →
    (program Tid).Step s (t, .release outcome) s' → s'.shared = ⟨false, false⟩
  failureReleased : ∀ t outcome s', outcome ≠ .success →
    (program Tid).Step s (t, .ret outcome) s' →
      [.finish outcome, .release outcome] <:+ Program.eventsOf t es
  successCompleted : ∀ t s', (program Tid).Step s (t, .ret .success) s' →
    s'.shared.initialized = true

section Consequences

variable {es : List (Tid × Event)} {s s' : ThreadState Tid Flags Pc} {t : Tid}

/-- A functor starts only before the first success. -/
theorem successes_of_start (inv : Invariant es s)
    (moved : (program Tid).Step s (t, .start) s') : successes es = 0 := by
  have known := inv.knows t
  obtain ⟨pc, _, _, at_, step, -⟩ := moved.inv
  rw [at_] at known
  cases step
  exact known.2

theorem noStartAfter {pre post : List (Tid × Event)} {u : Tid}
    (run : (program Tid).Run es s) (split : es = pre ++ (t, .finish .success) :: post) :
    (u, .start) ∉ post := by
  intro later
  obtain ⟨between, rest, rfl⟩ := List.append_of_mem later
  rw [← List.cons_append, ← List.append_assoc] at split
  obtain ⟨s₀, s₁, earlier, moved⟩ := (split ▸ run).before
  have none := successes_of_start (invariant earlier) moved
  simp [successes] at none

theorem release_eq {outcome : Outcome} (inv : Invariant es s) (failure : outcome ≠ .success)
    (moved : (program Tid).Step s (t, .release outcome) s') : s'.shared = ⟨false, false⟩ := by
  have known := inv.knows t
  obtain ⟨pc, _, _, at_, step, rfl⟩ := moved.inv
  rw [at_] at known
  cases step
  cases outcome <;> simp_all [Knows]

theorem leaves_of_ret {outcome : Outcome} (moved : (program Tid).Step s (t, .ret outcome) s') :
    s'.shared = s.shared ∧ ∃ f, s.pc t = .leave f outcome := by
  obtain ⟨pc, _, _, at_, step, rfl⟩ := moved.inv
  cases step
  exact ⟨rfl, _, at_⟩

end Consequences

/-- `once` keeps its promises in every run of any number of threads. -/
theorem guarantees {es : List (Tid × Event)} {s : ThreadState Tid Flags Pc}
    (run : (program Tid).Run es s) : Guarantees es s := by
  have inv := invariant run
  refine ⟨?_, successes_le_one inv, fun _ _ _ _ => noStartAfter run, exists_success inv, ?_, ?_,
    fun _ _ _ => release_eq inv, ?_, ?_⟩
  · refine inv.one.mono fun pc executing => ?_
    cases pc <;> first | exact executing.elim | trivial
  · rintro _ _ ⟨moved⟩ set
    exact CallStep.initialized_stays moved set
  · intro t f outcome failure at_
    have known := inv.knows t
    rw [at_] at known
    cases outcome <;> simp_all [Knows]
  · intro t outcome s' failure moved
    obtain ⟨-, f, at_⟩ := leaves_of_ret moved
    have failed := failed_of_run run t
    rw [at_] at failed
    exact failed failure
  · intro t s' moved
    obtain ⟨same, f, at_⟩ := leaves_of_ret moved
    have known := inv.knows t
    rw [at_] at known
    rw [same]
    exact known

/-- One of two threads completes the `once` with a functor that succeeds. -/
theorem guarantees_completed : ∃ es s, (program Bool).Run es s ∧ s.shared = ⟨true, false⟩ ∧
    Guarantees es s := by
  have fresh := Program.Run.start (P := program Bool)
  have called := fresh.step (.thread (t := true) (.call (f := .plain)))
  have tested := called.step (.thread (t := true) (.incomplete rfl))
  have acquired := tested.step (.thread (t := true) (.acquire rfl))
  have rechecked := acquired.step (.thread (t := true) (.unconsumed rfl))
  have started := rechecked.step (.thread (t := true) .start)
  have finished := started.step (.thread (t := true) .succeed)
  have completed := finished.step (.thread (t := true) .complete)
  have released := completed.step (.thread (t := true) .release)
  exact ⟨_, _, released, rfl, guarantees released⟩

end LibCxxExt.Threading.Once
