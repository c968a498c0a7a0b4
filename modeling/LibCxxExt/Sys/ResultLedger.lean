import LibCxxExt.Sys.ResultOperations

/-! Programs that use a pool of results. A program is a list of calls; it catches what they throw
and goes on, and stops where it is terminated. Every payload is destroyed exactly once, unless the
construction of an error from one argument throws: `ctor_err(auto&&)` then terminates the program.
-/

namespace LibCxxExt.Sys.Result

open LibCxxExt.ProofKit

variable {V E : Type}

/-- The calls a program makes on results. Constructors and conversions name the address of the new
result, and `swap` that of its local. -/
inductive Op (V E : Type) where
  | value (this : Addr) (val : V) (nothrow : Bool)
  | error (this : Addr) (val : E) (nothrow single : Bool)
  | moveResult (this other : Addr)
  | assign (this other : Addr)
  | swap (a b tmp : Addr)
  | move (this : Addr)
  | moveOr (this : Addr) (other : V) (nothrow : Bool)
  | expect (this : Addr)
  | err (this : Addr)
  | expectErr (this : Addr)
  | toVoidErr (this ret : Addr)
  | destroy (this : Addr)

inductive Ret (V E : Type) where
  | nothing
  | value (v : V)
  | error (e : E)
  deriving DecidableEq, Repr

/-- What `expect` returns: a `void` value is nothing. -/
def Ret.ofValue : Option V → Ret V E
  | some v => .value v
  | none => .nothing

def Ret.ofError : Option E → Ret V E
  | some e => .error e
  | none => .nothing

/-- A call on results of type `ty`, with the constructions in it that throw. -/
structure Call (V E : Type) where
  ty : ResultType
  op : Op V E
  throws : Site → Nat → Bool

def Call.exec (call : Call V E) : Exec (World V E) (Ret V E) :=
  match call.op with
  | .value this val nothrow => do
    valueResult call.throws call.ty this val nothrow
    return .nothing
  | .error this val nothrow single => do
    errorResult call.throws call.ty this val nothrow single
    return .nothing
  | .moveResult this other => do
    moveResult call.throws call.ty this other
    return .nothing
  | .assign this other => do
    assign call.throws call.ty this other
    return .nothing
  | .swap a b tmp => do
    swap call.throws call.ty a b tmp
    return .nothing
  | .move this => return .value (← move call.throws call.ty this)
  | .moveOr this other nothrow => return .value (← moveOr call.throws call.ty this other nothrow)
  | .expect this => return .ofValue (← expect call.throws call.ty this)
  | .err this => return .error (← err call.throws call.ty this)
  | .expectErr this => return .ofError (← expectErr call.throws call.ty this)
  | .toVoidErr this ret => do
    toVoidErr call.throws call.ty this ret
    return .nothing
  | .destroy this => do
    destroy call.ty this
    return .nothing

/-- `result<void, void>` is another template. -/
def ResultType.Primary (ty : ResultType) : Prop := ty.T.isVoid = false ∨ ty.Err.isVoid = false

/-- The calls that compile and keep to the lifetimes: new results are constructed where there is
none, and the others live and have the type of the call. -/
def Call.Valid (call : Call V E) (c : Pool V E) : Prop :=
  match call.op with
  | .value this _ _ => c this = none ∧ call.ty.T.isVoid = false
  | .error this _ _ single =>
    c this = none ∧ call.ty.Err.isVoid = false ∧ (single = false → ∃ p, call.ty.Err = .object p)
  | .moveResult this other => call.ty.Primary ∧ c this = none ∧ ∃ k, c other = some (call.ty, k)
  | .assign this other =>
    call.ty.Primary ∧ (∃ k, c this = some (call.ty, k)) ∧ ∃ k, c other = some (call.ty, k)
  | .swap a b tmp =>
    call.ty.Primary ∧ (∃ k, c a = some (call.ty, k)) ∧ (∃ k, c b = some (call.ty, k)) ∧ c tmp = none
  | .move this => call.ty.T.isVoid = false ∧ ∃ k, c this = some (call.ty, k)
  | .moveOr this _ _ => call.ty.T.isVoid = false ∧ ∃ k, c this = some (call.ty, k)
  | .expect this => call.ty.Primary ∧ ∃ k, c this = some (call.ty, k)
  | .err this => call.ty.Err.isVoid = false ∧ ∃ k, c this = some (call.ty, k)
  | .expectErr this => call.ty.Primary ∧ ∃ k, c this = some (call.ty, k)
  | .toVoidErr this ret =>
    call.ty.Err.isVoid = false ∧ (∃ k, c this = some (call.ty, k)) ∧ c ret = none
  | .destroy this => ∃ k, c this = some (call.ty, k)

/-- What a call that returns `ret` makes of the pool `c`. -/
def Call.Effect (call : Call V E) (c : Pool V E) (ret : Ret V E) (c' : Pool V E) : Prop :=
  match call.op with
  | .value this val _ => c' = Function.update c this (some (call.ty, .good (some val)))
  | .error this val _ _ => c' = Function.update c this (some (call.ty, .bad (some val)))
  | .moveResult this other => ∃ k, c other = some (call.ty, k) ∧
    c' = Function.update (Function.update c other (some (call.ty, .empty))) this (some (call.ty, k))
  | .assign this other => ∃ k, c other = some (call.ty, k) ∧
    c' = if this = other then c else
      Function.update (Function.update c other (some (call.ty, .empty))) this (some (call.ty, k))
  | .swap a b _ => ∃ ka kb, c a = some (call.ty, ka) ∧ c b = some (call.ty, kb) ∧
    c' = Function.update (Function.update c a (some (call.ty, kb))) b (some (call.ty, ka))
  | .move this => ∃ v, ret = .value v ∧ c this = some (call.ty, .good (some v)) ∧
    c' = Function.update c this (some (call.ty, .empty))
  | .moveOr this other _ =>
    (∃ v, ret = .value v ∧ c this = some (call.ty, .good (some v)) ∧
      c' = Function.update c this (some (call.ty, .empty))) ∨
    ((∀ v, c this ≠ some (call.ty, .good v)) ∧ ret = .value other ∧ c' = c)
  | .expect this => ∃ v, ret = .ofValue v ∧ c this = some (call.ty, .good v) ∧
    c' = Function.update c this (some (call.ty, .empty))
  | .err this => ∃ e, ret = .error e ∧ c this = some (call.ty, .bad (some e)) ∧
    c' = Function.update c this (some (call.ty, .empty))
  | .expectErr this => ∃ e, ret = .ofError e ∧ c this = some (call.ty, .bad e) ∧
    c' = Function.update c this (some (call.ty, .empty))
  | .toVoidErr this ret => ∃ k, c this = some (call.ty, k) ∧ c' = c.converted call.ty this ret k
  | .destroy this => c' = Function.update c this none

/-- A call that violates a contract: the value of a result that is not good, or the error of one
that is not bad. -/
def Call.Refused (call : Call V E) (c : Pool V E) : Prop :=
  match call.op with
  | .move this => ∀ v, c this ≠ some (call.ty, .good v)
  | .expect this => ∀ v, c this ≠ some (call.ty, .good v)
  | .err this => ∀ e, c this ≠ some (call.ty, .bad e)
  | .expectErr this => ∀ e, c this ≠ some (call.ty, .bad e)
  | _ => False

/-- No construction of an error throws in `ctor_err(auto&&)`. -/
def Call.Quiet (call : Call V E) : Prop := ∀ n, call.throws .putError n = false

section Step

variable {abort : Prop} {c : Pool V E} {call : Call V E}

/-- What is known of a call that threw: it was refused or a construction threw, and the payloads are
accounted for. -/
def Call.Threw (call : Call V E) (c : Pool V E) (w : World V E) : Prop :=
  (call.Refused c ∨ ∃ site n, call.throws site n = true) ∧ Sound w

theorem Untaken.threw {a : Addr} {k : Content V E} {expected : Status} {w : World V E}
    (h : Untaken call.throws c a call.ty k expected w)
    (refused : k.status ≠ expected → call.Refused c) : call.Threw c w :=
  ⟨h.1.imp_left refused, h.2.elim Models.toSound Models.toSound⟩

theorem entry_ne {a : Addr} {ty : ResultType} {k k' : Content V E} (hc : c a = some (ty, k))
    (violated : k.status ≠ k'.status) : c a ≠ some (ty, k') := by
  intro other
  obtain ⟨-, rfl⟩ := Prod.mk.inj (Option.some.inj (hc.symm.trans other))
  exact violated rfl

theorem Call.returning {α : Type} {m : Exec (World V E) α} {f : α → Ret V E}
    {R : α → World V E → Prop} {X : World V E → Prop} (h : Triple abort (Models c) m R X)
    (effect : ∀ a w, R a w → ∃ c', call.Effect c (f a) c' ∧ Models c' w)
    (thrown : ∀ w, X w → call.Threw c w) :
    Triple abort (Models c) (do return f (← m))
      (fun ret w => ∃ c', call.Effect c ret c' ∧ Models c' w) (call.Threw c) :=
  Triple.bind (Triple.weaken h effect thrown) fun _ => Triple.pure fun _ h => h

/-- One call: what it does to the pool when it returns, and that nothing is lost when it throws. -/
theorem Call.spec (valid : call.Valid c) (licence : (∃ n, call.throws .putError n = true) → abort) :
    Triple abort (Models c) call.exec
      (fun ret w => ∃ c', call.Effect c ret c' ∧ Models c' w) (call.Threw c) := by
  obtain ⟨ty, op, throws⟩ := call
  cases op with
  | value this val nothrow =>
    obtain ⟨free, valued⟩ := valid
    exact Call.returning (valueResult_spec free valued) (fun _ _ hw => ⟨_, rfl, hw⟩)
      fun w ⟨threw, hw⟩ => ⟨.inr threw.thrown, hw.toSound⟩
  | error this val nothrow single =>
    obtain ⟨free, valued, arity⟩ := valid
    exact Call.returning (errorResult_spec free valued arity licence) (fun _ _ hw => ⟨_, rfl, hw⟩)
      fun w ⟨threw, hw⟩ => ⟨.inr threw.thrown, hw.toSound⟩
  | moveResult this other =>
    obtain ⟨-, free, k, hother⟩ := valid
    exact Call.returning (moveResult_spec free hother licence)
      (fun _ _ hw => ⟨_, ⟨k, hother, rfl⟩, hw⟩)
      fun w ⟨threw, lost⟩ => ⟨.inr threw.thrown, lost.elim Models.toSound Models.toSound⟩
  | assign this other =>
    obtain ⟨-, ⟨k', hthis⟩, k, hother⟩ := valid
    rcases eq_or_ne this other with rfl | hne
    · exact Call.returning (X := fun _ => False) assign_self_spec
        (fun _ _ hw => ⟨c, ⟨k, hother, (if_pos rfl).symm⟩, hw⟩) fun _ no => no.elim
    · exact Call.returning (assign_spec hthis hother hne licence)
        (fun _ _ hw => ⟨_, ⟨k, hother, (if_neg hne).symm⟩, hw⟩)
        fun w ⟨threw, lost⟩ => ⟨.inr threw.thrown, lost.elim Models.toSound Models.toSound⟩
  | swap a b tmp =>
    obtain ⟨-, ⟨ka, ha⟩, ⟨kb, hb⟩, htmp⟩ := valid
    exact Call.returning (swap_spec ha hb htmp licence)
      (fun _ _ hw => ⟨_, ⟨ka, kb, ha, hb, rfl⟩, hw⟩) fun w ⟨thrown, hw⟩ => ⟨.inr thrown, hw⟩
  | move this =>
    obtain ⟨valued, k, hthis⟩ := valid
    refine Call.returning (move_spec hthis valued) ?_ ?_
    · rintro v w ⟨rfl, hw⟩
      exact ⟨_, ⟨v, rfl, hthis, rfl⟩, hw⟩
    · intro w hw
      exact hw.threw fun violated v => entry_ne hthis violated
  | moveOr this other nothrow =>
    obtain ⟨valued, k, hthis⟩ := valid
    refine Call.returning (moveOr_spec hthis valued) ?_ ?_
    · rintro v w (⟨rfl, hw⟩ | ⟨violated, rfl, hw⟩)
      · exact ⟨_, .inl ⟨v, rfl, hthis, rfl⟩, hw⟩
      · exact ⟨c, .inr ⟨fun v' => entry_ne hthis violated, rfl, rfl⟩, hw⟩
    · intro w ⟨threw, lost⟩
      exact ⟨.inr threw.thrown, lost.elim Models.toSound Models.toSound⟩
  | expect this =>
    obtain ⟨-, k, hthis⟩ := valid
    refine Call.returning (expect_spec hthis) ?_ ?_
    · rintro v w ⟨rfl, hw⟩
      exact ⟨_, ⟨v, rfl, hthis, rfl⟩, hw⟩
    · intro w hw
      exact hw.threw fun violated v => entry_ne hthis violated
  | err this =>
    obtain ⟨valued, k, hthis⟩ := valid
    refine Call.returning (err_spec hthis valued) ?_ ?_
    · rintro e w ⟨rfl, hw⟩
      exact ⟨_, ⟨e, rfl, hthis, rfl⟩, hw⟩
    · intro w hw
      exact hw.threw fun violated e => entry_ne hthis violated
  | expectErr this =>
    obtain ⟨-, k, hthis⟩ := valid
    refine Call.returning (expectErr_spec hthis) ?_ ?_
    · rintro e w ⟨rfl, hw⟩
      exact ⟨_, ⟨e, rfl, hthis, rfl⟩, hw⟩
    · intro w hw
      exact hw.threw fun violated e => entry_ne hthis violated
  | toVoidErr this ret =>
    obtain ⟨-, ⟨k, hthis⟩, free⟩ := valid
    exact Call.returning (toVoidErr_spec hthis free) (fun _ _ hw => ⟨_, ⟨k, hthis, rfl⟩, hw⟩)
      fun w ⟨threw, lost⟩ => ⟨.inr threw.thrown, lost.elim Models.toSound Models.toSound⟩
  | destroy this =>
    obtain ⟨k, hthis⟩ := valid
    exact Call.returning (X := fun _ => False) (destroy_spec hthis) (fun _ _ hw => ⟨_, rfl, hw⟩)
      fun _ no => no.elim

end Step

section Quiet

/-- The constructions that throw, apart from those of an error in `ctor_err(auto&&)`. -/
def quieted (throws : Site → Nat → Bool) (site : Site) (n : Nat) : Bool :=
  throws site n && site ≠ .putError

variable (throws : Site → Nat → Bool) (ty : ResultType)

theorem attempt_quieted {site : Site} (other : site ≠ .putError) (nothrow : Bool) :
    attempt (V := V) (E := E) (quieted throws) site nothrow = attempt throws site nothrow := by
  simp [attempt, quieted, other]

theorem constructAt_quieted {site : Site} (other : site ≠ .putError) (nothrow : Bool) (a : Addr)
    (slot : Nat → Slot V E) : constructAt (quieted throws) site nothrow a slot =
      constructAt throws site nothrow a slot := by
  simp only [constructAt, attempt_quieted throws other]

theorem ctorOk_quieted (this : Addr) (val : V) (nothrow : Bool) :
    ctorOk (E := E) (quieted throws) ty this val nothrow = ctorOk throws ty this val nothrow := by
  simp only [ctorOk, constructAt_quieted throws (nofun : Site.putValue ≠ .putError)]

theorem ctorErrInplace_quieted (this : Addr) (val : E) (nothrow : Bool) :
    ctorErrInplace (V := V) (quieted throws) ty this val nothrow =
      ctorErrInplace throws ty this val nothrow := by
  simp only [ctorErrInplace, constructAt_quieted throws (nofun : Site.emplaceError ≠ .putError)]

theorem moveUnsafe_quieted (this : Addr) :
    moveUnsafe (V := V) (E := E) (quieted throws) ty this = moveUnsafe throws ty this := by
  simp only [moveUnsafe, attempt_quieted throws (nofun : Site.takeValue ≠ .putError),
    attempt_quieted throws (nofun : Site.returnValue ≠ .putError)]

theorem errUnsafe_quieted (this : Addr) :
    errUnsafe (V := V) (E := E) (quieted throws) ty this = errUnsafe throws ty this := by
  simp only [errUnsafe, attempt_quieted throws (nofun : Site.takeError ≠ .putError),
    attempt_quieted throws (nofun : Site.returnError ≠ .putError)]

/-- Where the construction throws, `noexcept` terminates the program. -/
theorem ctorErr_follows (this : Addr) (val : E) (nothrow : Bool) :
    Exec.Follows (ctorErr (V := V) (quieted throws) ty this val nothrow)
      (ctorErr throws ty this val nothrow) := by
  intro w
  cases hE : ty.Err with
  | lvalueRef | void => exact .inl (by simp only [ctorErr, hE])
  | object p =>
    by_cases thrown : (!nothrow && throws .putError w.attempts) = true
    · refine .inr ?_
      simp [ctorErr, hE, constructAt, Exec.noexceptIf, Exec.bind_run, attempt_run, thrown]
    · refine .inl ?_
      simp [ctorErr, hE, constructAt, Exec.noexceptIf, Exec.bind_run, attempt_run, thrown, quieted]

theorem errorResult_follows (this : Addr) (val : E) (nothrow single : Bool) :
    Exec.Follows (errorResult (V := V) (quieted throws) ty this val nothrow single)
      (errorResult throws ty this val nothrow single) := by
  refine .noexceptIf _ (.bind (.refl _) fun _ => .onThrow _ ?_)
  cases single with
  | true => exact ctorErr_follows throws ty this val nothrow
  | false =>
    rw [if_neg nofun, if_neg nofun, ctorErrInplace_quieted]
    exact .refl _

theorem takeFrom_follows (this other : Addr) :
    Exec.Follows (takeFrom (V := V) (E := E) (quieted throws) ty this other)
      (takeFrom throws ty this other) := by
  refine .bind (.refl _) fun o => ?_
  simp only [moveUnsafe_quieted, errUnsafe_quieted, ctorOk_quieted]
  cases o.status with
  | ok | empty => exact .refl _
  | error =>
    by_cases void : ty.Err.isVoid = true
    · simp only [void]
      exact .refl _
    · simp only [void]
      exact .bind (.refl _) fun e => ctorErr_follows throws ty this e _

theorem moveResult_follows (this other : Addr) :
    Exec.Follows (moveResult (V := V) (E := E) (quieted throws) ty this other)
      (moveResult throws ty this other) :=
  .noexceptIf _ (.bind (.refl _) fun _ => .onThrow _ (takeFrom_follows throws ty this other))

theorem assign_follows (this other : Addr) :
    Exec.Follows (assign (V := V) (E := E) (quieted throws) ty this other)
      (assign throws ty this other) := by
  refine .noexceptIf _ ?_
  by_cases same : this = other
  · simp only [same]
    exact .refl _
  · simp only [same]
    exact .bind (.refl _) fun _ => .bind (.refl _) fun _ => takeFrom_follows throws ty this other

theorem swap_follows (a b tmp : Addr) :
    Exec.Follows (swap (V := V) (E := E) (quieted throws) ty a b tmp) (swap throws ty a b tmp) := by
  have rotate (x y : Addr) : Exec.Follows
      (do
        moveResult (V := V) (E := E) (quieted throws) ty tmp x
        Exec.atExit (do assign (quieted throws) ty x y; assign (quieted throws) ty y tmp)
          (destroy ty tmp))
      (do
        moveResult throws ty tmp x
        Exec.atExit (do assign throws ty x y; assign throws ty y tmp) (destroy ty tmp)) :=
    .bind (moveResult_follows throws ty tmp x) fun _ => .atExit _
      (.bind (assign_follows throws ty x y) fun _ => assign_follows throws ty y tmp)
  refine .noexceptIf _ (.bind (.refl _) fun o => ?_)
  cases movesSecondFirst ty o.status with
  | true => exact rotate b a
  | false => exact rotate a b

def Call.quieted (call : Call V E) : Call V E := { call with throws := Result.quieted call.throws }

theorem Call.quiet_quieted (call : Call V E) : call.quieted.Quiet := by
  intro n
  simp [Call.quieted, Result.quieted]

theorem Call.exec_follows (call : Call V E) : Exec.Follows call.quieted.exec call.exec := by
  obtain ⟨ty, op, throws⟩ := call
  cases op with
  | value this val nothrow =>
    refine .bind ?_ fun _ => .refl _
    simp only [Call.quieted, valueResult, ctorOk_quieted]
    exact .refl _
  | error this val nothrow single =>
    exact .bind (errorResult_follows throws ty this val nothrow single) fun _ => .refl _
  | moveResult this other =>
    exact .bind (moveResult_follows throws ty this other) fun _ => .refl _
  | assign this other => exact .bind (assign_follows throws ty this other) fun _ => .refl _
  | swap a b tmp => exact .bind (swap_follows throws ty a b tmp) fun _ => .refl _
  | move this =>
    refine .bind ?_ fun _ => .refl _
    simp only [Call.quieted, move, moveUnsafe_quieted]
    exact .refl _
  | moveOr this other nothrow =>
    refine .bind ?_ fun _ => .refl _
    simp only [Call.quieted, moveOr, moveUnsafe_quieted,
      attempt_quieted throws (nofun : Site.otherValue ≠ .putError)]
    exact .refl _
  | expect this =>
    refine .bind ?_ fun _ => .refl _
    simp only [Call.quieted, expect, moveUnsafe_quieted]
    exact .refl _
  | err this =>
    refine .bind ?_ fun _ => .refl _
    simp only [Call.quieted, err, errUnsafe_quieted]
    exact .refl _
  | expectErr this =>
    refine .bind ?_ fun _ => .refl _
    simp only [Call.quieted, expectErr, errUnsafe_quieted]
    exact .refl _
  | toVoidErr this ret =>
    refine .bind ?_ fun _ => .refl _
    simp only [Call.quieted, toVoidErr, valueResult, ctorOk_quieted, moveUnsafe_quieted]
    exact .refl _
  | destroy this => exact .refl _

end Quiet

section Runs

/-- How a program goes on after a call: it catches what is thrown. -/
def caught {α : Type} : Outcome α → Outcome Unit
  | .ok _ => .ok ()
  | .threw => .ok ()
  | .terminated => .terminated
  | .undefined => .undefined

/-- `Run calls out w`: the program made `calls`, each of them a valid one, got to `w`, and is
running there when `out` is `ok`. -/
inductive Run : List (Call V E) → Outcome Unit → World V E → Prop where
  | start : Run [] (.ok ()) .init
  | step {calls : List (Call V E)} {w : World V E} (call : Call V E) (run : Run calls (.ok ()) w)
    (valid : call.Valid w.view) : Run (calls ++ [call]) (caught (call.exec w).1) (call.exec w).2

/-- The payloads of a program that got to `w`: each was destroyed once, or lives in one result and
was not destroyed, and the status of every result names what it stores. -/
structure Managed (out : Outcome Unit) (w : World V E) : Prop where
  running : out = .ok ()
  once : ∀ id < w.born, (w.died.count id = 1 ∧ ∀ a, w.held a ≠ some id) ∨
    (w.died.count id = 0 ∧ ∃ a, w.held a = some id ∧ ∀ b, w.held b = some id → b = a)
  named : ∀ a o, w.objects a = some o → o.Agrees
  cleared : (∀ a, w.objects a = none) → ∀ id < w.born, w.died.count id = 1

/-- What is promised of a call on the world `w`. It returns what its effect on the pool says, or it
throws with a reason. -/
def Call.Behaves (call : Call V E) (w : World V E) : Prop :=
  Ends False (fun ret w' => call.Effect w.view ret w'.view)
    (fun _ => call.Refused w.view ∨ ∃ site n, call.throws site n = true) (call.exec w)

theorem Sound.managed {w : World V E} (h : Sound w) : Managed (.ok ()) w where
  running := rfl
  once _ hid := h.ledger.count_died hid
  named := h.agrees
  cleared gone _ hid := h.ledger.all_died (fun a => by simp [World.held, gone a]) hid

theorem Call.Quiet.licence {call : Call V E} (quiet : call.Quiet) :
    (∃ n, call.throws .putError n = true) → False := by
  rintro ⟨n, does⟩
  simp [quiet n] at does

theorem Call.behaves {call : Call V E} {w : World V E} (h : Sound w) (valid : call.Valid w.view)
    (quiet : call.Quiet) : call.Behaves w := by
  have ended := Call.spec valid quiet.licence w h.models
  rcases hexec : call.exec w with ⟨out, w'⟩
  rw [hexec] at ended
  rw [Call.Behaves, hexec]
  cases out with
  | ok ret =>
    obtain ⟨c', effect, models⟩ := ended
    rw [← models.view] at effect
    exact effect
  | threw => exact ended.1
  | terminated => exact ended
  | undefined => exact ended

/-- Where nothing throws and no contract is violated, a call returns. -/
theorem Call.completes {call : Call V E} {w : World V E} (h : Sound w) (valid : call.Valid w.view)
    (calm : ∀ site n, call.throws site n = false) (met : ¬ call.Refused w.view) :
    ∃ ret w', call.exec w = (.ok ret, w') ∧ call.Effect w.view ret w'.view := by
  have behaves := Call.behaves h valid (calm .putError)
  rw [Call.Behaves] at behaves
  rcases hexec : call.exec w with ⟨out, w'⟩
  rw [hexec] at behaves
  cases out with
  | ok ret => exact ⟨ret, w', rfl, behaves⟩
  | threw =>
    rcases behaves with refused | ⟨site, n, does⟩
    · exact absurd refused met
    · simp [calm site n] at does
  | terminated => exact behaves.elim
  | undefined => exact behaves.elim

theorem Call.sound {call : Call V E} {w : World V E} (h : Sound w) (valid : call.Valid w.view)
    (quiet : call.Quiet) : caught (call.exec w).1 = .ok () ∧ Sound (call.exec w).2 := by
  have ended := Call.spec valid quiet.licence w h.models
  rcases hexec : call.exec w with ⟨out, w'⟩
  rw [hexec] at ended
  cases out with
  | ok ret =>
    obtain ⟨c', -, models⟩ := ended
    exact ⟨rfl, models.toSound⟩
  | threw => exact ⟨rfl, ended.2⟩
  | terminated => exact ended.elim
  | undefined => exact ended.elim

theorem Run.sound {calls : List (Call V E)} {out : Outcome Unit} {w : World V E}
    (run : Run calls out w) (quiet : ∀ call ∈ calls, call.Quiet) : out = .ok () ∧ Sound w := by
  induction run with
  | start => exact ⟨rfl, sound_init⟩
  | step call run valid ih =>
    obtain ⟨-, sound⟩ := ih fun call hcall => quiet call (List.mem_append_left _ hcall)
    exact Call.sound sound valid (quiet _ (by simp))

/-- A program that is still running made a quiet run: constructions of an error that were never
attempted, or that their type promises not to throw, do not count. -/
theorem Run.quieted {calls : List (Call V E)} {w : World V E} (run : Run calls (.ok ()) w) :
    Run (calls.map Call.quieted) (.ok ()) w := by
  generalize running : Outcome.ok () = out at run
  induction run with
  | start => exact .start
  | @step calls w call run valid ih =>
    have same : call.quieted.exec w = call.exec w := by
      rcases call.exec_follows w with same | stopped
      · exact same
      · rw [stopped] at running
        exact absurd running nofun
    rw [List.map_append, ← same]
    exact .step call.quieted (ih rfl) valid

/-- Whatever throws, the payloads are managed until the program is terminated. -/
theorem Run.managed {calls : List (Call V E)} {w : World V E} (run : Run calls (.ok ()) w) :
    Managed (.ok ()) w := by
  refine (run.quieted.sound fun call hcall => ?_).2.managed
  obtain ⟨c, -, rfl⟩ := List.mem_map.mp hcall
  exact c.quiet_quieted

/-- In every run in which no construction of an error from one argument throws, whatever else
throws, the payloads are managed and every further call behaves. If nothing throws in it, it has its
effect. -/
theorem payloads_managed {calls : List (Call V E)} {out : Outcome Unit} {w : World V E}
    (run : Run calls out w) (quiet : ∀ call ∈ calls, call.Quiet) :
    Managed out w ∧
      (∀ call : Call V E, call.Valid w.view → call.Quiet → call.Behaves w) ∧
      ∀ call : Call V E, call.Valid w.view → (∀ site n, call.throws site n = false) →
        ¬ call.Refused w.view →
        ∃ ret w', call.exec w = (.ok ret, w') ∧ call.Effect w.view ret w'.view := by
  obtain ⟨rfl, sound⟩ := run.sound quiet
  exact ⟨sound.managed, fun call valid calm => Call.behaves sound valid calm,
    fun call valid calm met => Call.completes sound valid calm met⟩

end Runs

section Example

/-- A type whose move constructor may throw. -/
def fragile : Payload := { nothrowMove := false, size := 4 }

def fragileResult : ResultType := ⟨.object fragile, .object fragile⟩

def makeGood : Call Nat Nat := ⟨fragileResult, .value 0 7 false, fun _ _ => false⟩

def makeBad : Call Nat Nat := ⟨fragileResult, .error 1 8 false true, fun _ _ => false⟩

/-- The good result is moved, and the construction of the value in the new one throws. -/
def moveGood : Call Nat Nat :=
  ⟨fragileResult, .moveResult 2 0, fun site _ => decide (site = .putValue)⟩

/-- The bad result is moved, and the construction of the error in the new one throws. -/
def moveBad : Call Nat Nat :=
  ⟨fragileResult, .moveResult 2 1, fun site _ => decide (site = .putError)⟩

theorem payloads_managed_moveGood :
    ∃ w : World Nat Nat, Managed (.ok ()) w ∧ w.born = 1 ∧ w.died = [0] := by
  have run : Run [makeGood, moveGood] _ _ :=
    Run.step moveGood (Run.step makeGood Run.start ⟨rfl, rfl⟩) ⟨.inl rfl, rfl, _, rfl⟩
  have managed := (payloads_managed run (by
    intro call hcall
    simp only [List.mem_cons, List.not_mem_nil, or_false] at hcall
    rcases hcall with rfl | rfl <;> intro n <;> rfl)).1
  exact ⟨_, managed, rfl, rfl⟩

/-- The move of a bad result whose error throws when it is constructed in the new result terminates
the program, and the value in the other result is never destroyed. -/
theorem moveBad_terminates :
    ∃ w : World Nat Nat, Run [makeGood, makeBad, moveBad] .terminated w ∧
      ¬ Managed .terminated w ∧ 0 < w.born ∧ w.died.count 0 = 0 := by
  have run : Run [makeGood, makeBad, moveBad] _ _ :=
    Run.step moveBad (Run.step makeBad (Run.step makeGood Run.start ⟨rfl, rfl⟩)
      ⟨rfl, rfl, fun no => nomatch no⟩) ⟨.inl rfl, rfl, _, rfl⟩
  refine ⟨_, run, fun managed => ?_, ?_, ?_⟩
  · exact nomatch managed.running
  · decide
  · decide

end Example

end LibCxxExt.Sys.Result
