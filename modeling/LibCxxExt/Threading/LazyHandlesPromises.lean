import LibCxxExt.Threading.LazyHandles

/-! What the calls of a mutex and a condition variable promise. A call returns success or
`init_failed` by what happened in it, a failed `create` leaves the flags as they were, and a handle
is used and destroyed only once it has been created. -/

namespace LibCxxExt.Threading.LazyHandles

open LibCxxExt.ProofKit

/-- Whether an event of a thread's last call is a `hit`. -/
def inCall (hit : Event → Bool) (own : List Event) : Bool :=
  own.foldl (fun seen e => match e with
    | .call _ => false
    | e => seen || hit e) false

def obtainsLock : Event → Bool
  | .use op ret => op.Locks ∧ ret = .ok
  | _ => false

def failsCreate : Event → Bool
  | .once _ (.finish outcome) => outcome ≠ .success
  | _ => false

theorem inCall_call (hit : Event → Bool) (own : List Event) (c : Call) :
    inCall hit (own ++ [.call c]) = false := by
  simp [inCall]

theorem inCall_snoc (hit : Event → Bool) (own : List Event) {e : Event}
    (within : ∀ c, e ≠ .call c) : inCall hit (own ++ [e]) = (inCall hit own || hit e) := by
  cases e with
  | call c => exact absurd rfl (within c)
  | _ => simp [inCall]

/-- Whether `call_once` is on its way out with a failure. -/
def failing : Once.Pc → Bool
  | .cleanup _ outcome | .leave _ outcome => outcome ≠ .success
  | _ => false

/-- What the events of a thread's last call show at `pc`. -/
def Recorded (own : List Event) : Pc → Prop
  | .idle | .terminated => True
  | .pred | .contract _ | .use _ =>
    inCall obtainsLock own = false ∧ inCall failsCreate own = false
  | .init _ p => inCall obtainsLock own = false ∧ inCall failsCreate own = failing p
  | .report c outcome =>
    (c.op.Locks → (inCall obtainsLock own = true ↔ outcome = .success)) ∧
      (inCall failsCreate own = true ↔ outcome = .error .initFailed)

theorem Call.outcome_eq_success {c : Call} {ret : OsResult} :
    c.outcome ret = .success ↔ ret = .ok := by
  cases c <;> cases ret <;> simp [Call.outcome]

theorem Call.outcome_ne_initFailed (c : Call) (ret : OsResult) :
    c.outcome ret ≠ .error .initFailed := by
  cases c <;> cases ret <;> simp [Call.outcome]

theorem failing_step {flags flags' : Once.Flags} {p p' : Once.Pc} {e : Once.Event} {o : Object}
    (moved : Once.CallStep flags p e flags' p') (inside : InTryInit e) :
    failing p' = (failing p || failsCreate (.once o e)) := by
  cases moved with
  | fail failure => simp [failing, failsCreate, failure]
  | ret => exact inside.elim
  | _ => simp [failing, failsCreate]

theorem CallStep.recorded {flags flags' : Object → Once.Flags} {p p' : Pc} {e : Event}
    {own : List Event} (moved : CallStep flags p e flags' p') (recorded : Recorded own p) :
    Recorded (own ++ [e]) p' := by
  cases moved with
  | @call c =>
    have fresh (hit : Event → Bool) := inCall_call hit own c
    cases c <;> exact ⟨fresh _, fresh _⟩
  | @once c q e flags q' inside moved =>
    obtain ⟨unlocked, created⟩ := recorded
    constructor
    · rw [inCall_snoc _ _ (by simp), unlocked]
      rfl
    · rw [inCall_snoc _ _ (by simp), created, failing_step moved inside]
  | @use c ret =>
    obtain ⟨unlocked, created⟩ := recorded
    have locked : inCall obtainsLock (own ++ [.use c.op ret]) =
        decide (c.op.Locks ∧ ret = .ok) := by
      rw [inCall_snoc _ _ (by simp), unlocked]
      rfl
    have created : inCall failsCreate (own ++ [.use c.op ret]) = false := by
      rw [inCall_snoc _ _ (by simp), created]
      rfl
    obtain after | after | ⟨rfl, after⟩ := after_cases c ret <;> rw [after]
    · constructor
      · intro locks
        simp [locked, locks, Call.outcome_eq_success]
      · simp [created, Call.outcome_ne_initFailed]
    · trivial
    · exact ⟨by rw [locked]; rfl, created⟩
  | predHolds =>
    constructor
    · intro locks
      simp [Call.op, Op.Locks] at locks
    · simp [inCall_snoc, recorded.2, failsCreate]
  | predFails | contractMet =>
    constructor
    · simp [inCall_snoc, recorded.1, obtainsLock]
    · simp [inCall_snoc, recorded.2, failsCreate, failing]
  | ready =>
    constructor
    · simp [inCall_snoc, recorded.1, obtainsLock]
    · simp [inCall_snoc, recorded.2, failsCreate, failing]
  | notReady failure =>
    constructor
    · intro _
      simp [inCall_snoc, recorded.1, obtainsLock]
    · simp [inCall_snoc, recorded.2, failing, failure]
  | _ => trivial

section Guarantees

variable {Tid : Type} [DecidableEq Tid] {es : List (Tid × Event)}
  {s : ThreadState Tid (Object → Once.Flags) Pc}

theorem recorded_of_run (run : (program Tid).Run es s) :
    ∀ t, Recorded (Program.eventsOf t es) (s.pc t) :=
  run.own (P := program Tid) (R := Recorded) trivial fun _ _ _ _ _ _ _ => CallStep.recorded

/-- The thread is in `create` of the object. -/
def Creating (o : Object) (p : Pc) : Prop := ∃ c f, c.object = o ∧ p = .init c (.running f)

/-- A call that creates the handle of its object if there is none. -/
def Call.Initialises (c : Call) : Prop := c ≠ .release ∧ c ≠ .releaseGuard

/-- What the two classes promise in a state `s` that the steps `es` lead to, and of the step after
it. -/
structure Guarantees (es : List (Tid × Event)) (s : ThreadState Tid (Object → Once.Flags) Pc) :
    Prop where
  createdOnce : ∀ o, (es.countP fun e => e.2 = .once o (.finish .success)) ≤ 1
  createdAlone : ∀ o, AtMostOne (Creating o) s.pc
  usedCreated : ∀ pre post t op ret, es = pre ++ (t, .use op ret) :: post →
    ∃ u, (u, .once op.object (.finish .success)) ∈ pre
  -- A thread that waits hands over a mutex that it has locked.
  waitedCreated : ∀ pre post t ret (c : Call), es = pre ++ (t, .use .wait ret) :: post →
    c.op.Locks → (t, .ret c .success) ∈ pre → ∃ u, (u, .once .mutex (.finish .success)) ∈ pre
  initFailed : ∀ t c outcome s', (program Tid).Step s (t, .ret c outcome) s' →
    (outcome = .error .initFailed ↔ inCall failsCreate (Program.eventsOf t es) = true)
  failureReleases : ∀ o t outcome s', outcome ≠ .success →
    (program Tid).Step s (t, .once o (.release outcome)) s' → s'.shared o = ⟨false, false⟩
  failureReleased : ∀ o t outcome s', outcome ≠ .success →
    (program Tid).Step s (t, .once o (.ret outcome)) s' →
      [.finish outcome, .release outcome] <:+
        (Program.eventsOf t es).filterMap (Event.onceOf o)
  retryable : ∀ t (c : Call), c.Initialises → s.pc t = .idle →
    s.shared c.object = ⟨false, false⟩ → ∃ (own : List Event) (s' : _),
      (program Tid).Run (es ++ own.map (Prod.mk t)) s' ∧ s'.pc t = .init c (.running .result)
  locked : ∀ t (c : Call) outcome s', c.op.Locks → (program Tid).Step s (t, .ret c outcome) s' →
    (outcome = .success ↔ inCall obtainsLock (Program.eventsOf t es) = true)
  destroyed : (∀ t, s.pc t = .idle) → ∀ o,
    (destroys (s.shared o) = true ↔ ∃ t, (t, .once o (.finish .success)) ∈ es)

theorem Creating.holding {o : Object} {p : Pc} (creating : Creating o p) :
    Once.Holding (p.onceOf o) := by
  obtain ⟨c, f, rfl, rfl⟩ := creating
  simp [Pc.onceOf, Once.Holding]

theorem used_created (run : (program Tid).Run es s) {t : Tid} {op : Op} {ret : OsResult}
    {pre post : List (Tid × Event)} (split : es = pre ++ (t, .use op ret) :: post) :
    ∃ u, (u, .once op.object (.finish .success)) ∈ pre := by
  obtain ⟨s₀, s₁, before, moved⟩ := (split ▸ run).before
  obtain ⟨p, _, _, at_, step, -⟩ := moved.inv
  cases step with
  | @use c => exact exists_created before (initialized_of_use before t c at_)

theorem Op.Locks.object {op : Op} (locks : op.Locks) : op.object = .mutex := by
  obtain rfl | rfl := locks <;> rfl

theorem exists_of_inCall {hit : Event → Bool} {own : List Event} (seen : inCall hit own = true) :
    ∃ e ∈ own, hit e = true := by
  induction own using List.reverseRecOn with
  | nil => exact absurd seen nofun
  | append_singleton own e ih =>
    by_cases within : ∀ c, e ≠ .call c
    · rw [inCall_snoc hit own within, Bool.or_eq_true] at seen
      obtain earlier | last := seen
      · obtain ⟨e', mem, hits⟩ := ih earlier
        exact ⟨e', by simp [mem], hits⟩
      · exact ⟨e, by simp, last⟩
    · obtain ⟨c, rfl⟩ := not_forall_not.mp within
      rw [inCall_call] at seen
      exact absurd seen nofun

theorem reported {t : Tid} {c : Call} {outcome : Outcome}
    {s' : ThreadState Tid (Object → Once.Flags) Pc}
    (moved : (program Tid).Step s (t, .ret c outcome) s') : s.pc t = .report c outcome := by
  obtain ⟨p, _, _, at_, step, -⟩ := moved.inv
  cases step
  exact at_

/-- A lock operation that has succeeded used the handle of the mutex. -/
theorem locked_created (run : (program Tid).Run es s) {t : Tid} {c : Call} (locks : c.op.Locks)
    (locked : (t, .ret c .success) ∈ es) : ∃ u, (u, .once .mutex (.finish .success)) ∈ es := by
  obtain ⟨pre, post, rfl⟩ := List.append_of_mem locked
  obtain ⟨s₀, s₁, before, moved⟩ := run.before
  have recorded := recorded_of_run before t
  rw [reported moved] at recorded
  obtain ⟨e, mem, obtains⟩ := exists_of_inCall ((recorded.1 locks).mpr rfl)
  obtain ⟨op, ret, rfl, opLocks⟩ : ∃ op ret, e = .use op ret ∧ op.Locks := by
    cases e with
    | use op ret => exact ⟨op, ret, rfl, (of_decide_eq_true obtains).1⟩
    | _ => exact absurd obtains nofun
  have used : (t, .use op ret) ∈ pre := by
    simpa [Program.eventsOf] using mem
  obtain ⟨earlier, later, rfl⟩ := List.append_of_mem used
  obtain ⟨u, created⟩ := used_created before rfl
  rw [opLocks.object] at created
  exact ⟨u, by simp [created]⟩

theorem onceStep {o : Object} {t : Tid} {e : Once.Event}
    {s' : ThreadState Tid (Object → Once.Flags) Pc}
    (moved : (program Tid).Step s (t, .once o e) s') :
    (Once.program Tid).Step ((onceOf Tid o).state s) (t, e) ((onceOf Tid o).state s') := by
  simpa [onceOf, Event.onceOf] using (onceOf Tid o).moved moved

omit [DecidableEq Tid] in
/-- What a thread can do alone in a `once` it can do alone in `try_init`. -/
theorem alone_tryInit {t : Tid} (c : Call) (flags : Object → Once.Flags) {f f' : Once.Flags}
    {p p' : Once.Pc} {own : List Once.Event} (alone : (Once.program Tid).Alone t f p own f' p')
    (inside : ∀ e ∈ own, InTryInit e) :
    (program Tid).Alone t (Function.update flags c.object f) (.init c p)
      (own.map (.once c.object)) (Function.update flags c.object f') (.init c p') := by
  induction alone with
  | refl => exact .refl
  | @step f p e f₁ p₁ es _ _ moved _ ih =>
    have here : Once.CallStep (Function.update flags c.object f c.object) p e f₁ p₁ := by
      rwa [Function.update_self]
    have moved := CallStep.once (inside e (by simp)) here
    rw [Function.update_idem] at moved
    exact .step moved (ih fun e mem => inside e (by simp [mem]))

omit [DecidableEq Tid] in
/-- The steps of a thread alone from its call to `create`. -/
theorem creates_alone (t : Tid) {c : Call} (initialises : c.Initialises)
    {flags : Object → Once.Flags} (clear : flags c.object = ⟨false, false⟩) :
    ∃ own flags', (program Tid).Alone t flags .idle own flags' (.init c (.running .result)) := by
  have once : (Once.program Tid).Alone t ⟨false, false⟩ .idle
      [.call .result, .test, .test, .test, .start] ⟨false, true⟩ (.running .result) :=
    .step .call (.step (.incomplete rfl) (.step (.acquire rfl) (.step (.unconsumed rfl)
      (.step .start .refl))))
  have inits := alone_tryInit c flags once (by simp [InTryInit])
  rw [← clear, Function.update_eq_self] at inits
  by_cases waits : c = .waitUntil
  · subst waits
    exact ⟨_, _, .step (.call (c := .waitUntil)) (.step CallStep.predFails inits)⟩
  · have entry : c.entry = .init c .idle := by
      cases c <;> simp_all [Call.entry, Call.Initialises]
    exact ⟨_, _, .step .call (entry ▸ inits)⟩

theorem retryable (run : (program Tid).Run es s) {t : Tid} {c : Call} (initialises : c.Initialises)
    (idle : s.pc t = .idle) (clear : s.shared c.object = ⟨false, false⟩) :
    ∃ (own : List Event) (s' : _), (program Tid).Run (es ++ own.map (Prod.mk t)) s' ∧
      s'.pc t = .init c (.running .result) := by
  obtain ⟨own, flags, alone⟩ := creates_alone t initialises clear
  obtain ⟨s', run', -, at_⟩ := run.alone alone ⟨rfl, idle⟩
  exact ⟨own, s', run', at_⟩

theorem destroyed (run : (program Tid).Run es s) (idle : ∀ t, s.pc t = .idle) (o : Object) :
    destroys (s.shared o) = true ↔ ∃ t, (t, .once o (.finish .success)) ∈ es := by
  refine ⟨exists_created run, fun ⟨t, created⟩ => ?_⟩
  by_contra unset
  have clear : (s.shared o).initialized = false := by simpa [destroys] using unset
  have none := (onceInvariant run o).clear clear fun u f => by
    simp [Program.Projection.state, onceOf, idle u, Pc.onceOf]
  rw [successes_onceOf, List.countP_eq_zero] at none
  exact none _ created (by simp)

/-- Every run of any number of threads keeps these promises. -/
theorem lazily_created (run : (program Tid).Run es s) : Guarantees es s where
  createdOnce o := successes_onceOf o es ▸ Once.successes_le_one (onceInvariant run o)
  createdAlone o t u creating creating' :=
    (onceInvariant run o).one t u creating.holding creating'.holding
  usedCreated _ _ _ _ _ := used_created run
  waitedCreated pre post t ret c split locks locked := by
    obtain ⟨s₀, s₁, before, -⟩ := (split ▸ run).before
    exact locked_created before locks locked
  initFailed t c outcome s' moved := by
    have recorded := recorded_of_run run t
    rw [reported moved] at recorded
    exact recorded.2.symm
  failureReleases o t outcome s' failure moved :=
    Once.release_eq (onceInvariant run o) failure (onceStep moved)
  failureReleased o t outcome s' failure moved := by
    obtain ⟨-, f, at_⟩ := Once.leaves_of_ret (onceStep moved)
    have failed := Once.failed_of_run ((onceOf Tid o).run run) t
    rw [at_, (onceOf Tid o).eventsOf_events] at failed
    exact failed failure
  retryable _ _ := retryable run
  locked t c outcome s' locks moved := by
    have recorded := recorded_of_run run t
    rw [reported moved] at recorded
    exact (recorded.1 locks).symm
  destroyed := destroyed run

/-- The first of two threads fails to create the mutex, and the second creates and locks it. -/
theorem lazily_created_retried : ∃ es s, (program (Fin 2)).Run es s ∧
    s.pc 0 = .report .lock (.error .initFailed) ∧ s.pc 1 = .report .tryLock .success ∧
    Guarantees es s := by
  have fresh := Program.Run.start (P := program (Fin 2))
  have called := fresh.step (.thread (t := 0) (.call (c := .lock)))
  have entered := called.step (.thread (t := 0) (.once (e := .call .result) rfl .call))
  have tested := entered.step (.thread (t := 0) (.once (e := .test) trivial (.incomplete rfl)))
  have acquired := tested.step (.thread (t := 0) (.once (e := .test) trivial (.acquire rfl)))
  have rechecked := acquired.step (.thread (t := 0) (.once (e := .test) trivial (.unconsumed rfl)))
  have started := rechecked.step (.thread (t := 0) (.once (e := .start) trivial .start))
  have failed := started.step (.thread (t := 0)
    (.once (e := .finish .error) ⟨.error, rfl⟩ (.fail nofun trivial)))
  have released := failed.step (.thread (t := 0) (.once (e := .release .error) trivial .release))
  have reported := released.step (.thread (t := 0) (.notReady nofun))
  have called := reported.step (.thread (t := 1) (.call (c := .tryLock)))
  have entered := called.step (.thread (t := 1) (.once (e := .call .result) rfl .call))
  have tested := entered.step (.thread (t := 1) (.once (e := .test) trivial (.incomplete rfl)))
  have acquired := tested.step (.thread (t := 1) (.once (e := .test) trivial (.acquire rfl)))
  have rechecked := acquired.step (.thread (t := 1) (.once (e := .test) trivial (.unconsumed rfl)))
  have started := rechecked.step (.thread (t := 1) (.once (e := .start) trivial .start))
  have finished := started.step (.thread (t := 1)
    (.once (e := .finish .success) ⟨.ok, rfl⟩ .succeed))
  have completed := finished.step (.thread (t := 1) (.once (e := .complete) trivial .complete))
  have released := completed.step (.thread (t := 1)
    (.once (e := .release .success) trivial .release))
  have ready := released.step (.thread (t := 1) .ready)
  have used := ready.step (.thread (t := 1) (.use : CallStep _ _ (.use .tryLock .ok) _ _))
  exact ⟨_, _, used, rfl, rfl, lazily_created used⟩

end Guarantees

end LibCxxExt.Threading.LazyHandles
