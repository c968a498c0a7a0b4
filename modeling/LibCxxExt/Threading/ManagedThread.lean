import LibCxxExt.ProofKit.Exec
import LibCxxExt.ProofKit.Neighbours
import LibCxxExt.ProofKit.Tokens
import LibCxxExt.Threading.LazyHandles

/-! `managed_thread` (`ThreadEx.h`), which owns a thread by a copy of its handle. Its objects are
created, moved, swapped, joined, detached and destroyed in any order, and the operating system may
refuse each join and each detach. -/

namespace LibCxxExt.Threading.ManagedThread

open LibCxxExt.ProofKit
open LazyHandles (OsResult)

variable {Obj Thrd : Type}

/-! ### The model -/

/-- `internal::thread_handle`. There is no thread for `thrd_t {}`. -/
abbrev ThreadHandle (Thrd : Type) := Option Thrd

/-- An operation on a thread, with what it reports. A thread that could not be created leaves no
trace. -/
inductive OsCall (Thrd : Type)
  | create (th : Thrd)
  | join (th : ThreadHandle Thrd) (ret : OsResult)
  | detach (th : ThreadHandle Thrd) (ret : OsResult)
deriving DecidableEq

/-- The values of `threading_error` that the class reports. -/
inductive Error
  | oom
  | initFailed
  | operationFailed
  | invalidOperation
deriving DecidableEq

/-- What a member function returns, the handle it leaves in the object and what it asked of the
operating system. -/
structure Done (Thrd α : Type) where
  ret : α
  th : ThreadHandle Thrd
  call : Option (OsCall Thrd)

section Members

variable [DecidableEq Thrd] (current th : ThreadHandle Thrd)

def joinable : Bool := th.isSome && th != current

def join (ret : OsResult) (code : Int) : Done Thrd (Except Error Int) :=
  if !joinable current th then ⟨.error .invalidOperation, th, none⟩
  else if ret ≠ .ok then ⟨.error .operationFailed, th, some (.join th ret)⟩
  else ⟨.ok code, none, some (.join th ret)⟩

def detach (ret : OsResult) : Done Thrd Unit :=
  if !joinable current th then ⟨(), th, none⟩
  else ⟨(), none, some (.detach th ret)⟩

/-- A join that fails violates a contract, and the exception would leave the destructor. -/
def destructor (ret : OsResult) : Done Thrd (Outcome Unit) :=
  if joinable current th then
    if ret = .ok then ⟨.ok (), th, some (.join th ret)⟩
    else ⟨.terminated, th, some (.join th ret)⟩
  else ⟨.ok (), th, none⟩

end Members

/-- The handle in each object that exists, and the operations so far with the last one first. -/
structure World (Obj Thrd : Type) where
  objs : Obj → Option (ThreadHandle Thrd)
  calls : List (OsCall Thrd)

/-- What can be done with the objects. An assignment of `nullptr` is a construction, a move and a
destruction. -/
inductive Action (Obj Thrd : Type)
  | null (o : Obj)
  | ctor (o : Obj) (created : Except Error Thrd)
  | moveConstruct (o other : Obj)
  | moveAssign (o other : Obj)
  | swap (a b : Obj)
  | join (o : Obj) (ret : OsResult) (code : Int)
  | detach (o : Obj) (ret : OsResult)
  | destroy (o : Obj) (ret : OsResult)

section World

variable [DecidableEq Obj] [DecidableEq Thrd]

/-- `swap(a, b)`. -/
def World.swap (w : World Obj Thrd) (a b : Obj) : World Obj Thrd where
  objs := Function.update (Function.update w.objs a (w.objs b)) b (w.objs a)
  calls := w.calls

/-- `object` is left in the place of `o`, after the operation `call`. -/
def World.after (w : World Obj Thrd) (o : Obj) (object : Option (ThreadHandle Thrd))
    (call : Option (OsCall Thrd)) : World Obj Thrd where
  objs := Function.update w.objs o object
  calls := call.toList ++ w.calls

/-- What the thread `current` makes of the objects. It is `none` where an object that the action
needs does not exist, or one that it creates does. -/
def World.perform (current : ThreadHandle Thrd) (w : World Obj Thrd) :
    Action Obj Thrd → Option (Outcome Unit × World Obj Thrd)
  | .null o =>
    if (w.objs o).isNone then some (.ok (), w.after o (some none) none) else none
  | .ctor o (.ok th) =>
    if (w.objs o).isNone then some (.ok (), w.after o (some (some th)) (some (.create th)))
    else none
  | .ctor _ (.error _) => some (.ok (), w)
  | .moveConstruct o other =>
    if (w.objs o).isNone ∧ (w.objs other).isSome
    then some (.ok (), (w.after o (some none) none).swap o other) else none
  | .moveAssign o other =>
    if (w.objs o).isSome ∧ (w.objs other).isSome then some (.ok (), w.swap o other) else none
  | .swap a b =>
    if (w.objs a).isSome ∧ (w.objs b).isSome then some (.ok (), w.swap a b) else none
  | .join o ret code => (w.objs o).map fun th =>
    let done := ManagedThread.join current th ret code
    (.ok (), w.after o (some done.th) done.call)
  | .detach o ret => (w.objs o).map fun th =>
    let done := ManagedThread.detach current th ret
    (.ok (), w.after o (some done.th) done.call)
  | .destroy o ret => (w.objs o).map fun th =>
    let done := destructor current th ret
    (done.ret, w.after o none done.call)

def OsCall.creates (x : Thrd) : OsCall Thrd → Bool
  | .create th => th == x
  | _ => false

/-- A join or a detach of `x`. -/
def OsCall.uses (x : Thrd) : OsCall Thrd → Bool
  | .join th _ | .detach th _ => th == some x
  | _ => false

/-- A join of `x` that succeeds, or any detach. -/
def OsCall.releases (x : Thrd) : OsCall Thrd → Bool
  | .join th ret => th == some x && ret == .ok
  | .detach th _ => th == some x
  | _ => false

/-- The thread `x` was neither joined nor detached since it was created. -/
abbrev Owing (calls : List (OsCall Thrd)) (x : Thrd) : Prop :=
  Sees (OsCall.creates x) (OsCall.releases x) calls

/-- The action is performed by a thread that is not managed, and a thread that is created has a
handle of its own. -/
structure Allowed (current : ThreadHandle Thrd) (w : World Obj Thrd) (a : Action Obj Thrd) :
    Prop where
  outside : ∀ x, Owing w.calls x → current ≠ some x
  fresh : ∀ o x, a = .ctor o (.ok x) → ¬ Owing w.calls x

/-- The sequences of actions, each by a thread of its own choice. -/
inductive Run : World Obj Thrd → Prop
  | start : Run ⟨fun _ => none, []⟩
  | step {w w' : World Obj Thrd} {current : ThreadHandle Thrd} {a : Action Obj Thrd} :
    Run w → Allowed current w a → w.perform current a = some (.ok (), w') → Run w'

end World

/-! ### Members -/

section Members

variable [DecidableEq Thrd] {current th : ThreadHandle Thrd} {ret : OsResult}

/-- What a member function may do to a handle `th`: nothing, a join that fails, or the end of the
ownership. -/
inductive Treats (th : ThreadHandle Thrd) : ThreadHandle Thrd → Option (OsCall Thrd) → Prop
  | untouched : Treats th th none
  | refused {x : Thrd} {call : OsCall Thrd} : th = some x → call.uses x = true →
    (∀ y, call.creates y = false) → (∀ y, call.releases y = false) → Treats th th (some call)
  | released {x : Thrd} {call : OsCall Thrd} : th = some x → call.uses x = true →
    (∀ y, call.creates y = false) → (∀ y, call.releases y = true ↔ y = x) →
    Treats th none (some call)

theorem joinable_iff : joinable current th = true ↔ ∃ x, th = some x ∧ current ≠ some x := by
  cases th with
  | none => simp [joinable]
  | some x => simp [joinable, eq_comm (a := current)]

theorem Treats.join {x : Thrd} : Treats (some x) (if ret = .ok then none else some x)
    (some (.join (some x) ret)) := by
  by_cases ok : ret = .ok
  · rw [if_pos ok]
    refine .released rfl (beq_self_eq_true _) (fun _ => rfl) fun y => ?_
    simp [OsCall.releases, ok, eq_comm (a := x)]
  · rw [if_neg ok]
    refine .refused rfl (beq_self_eq_true _) (fun _ => rfl) fun y => ?_
    simp [OsCall.releases, ok]

theorem join_treats (code : Int) :
    Treats th (join current th ret code).th (join current th ret code).call := by
  unfold ManagedThread.join
  cases able : joinable current th with
  | false => exact .untouched
  | true =>
    obtain ⟨x, rfl, -⟩ := joinable_iff.mp able
    have treats : Treats (some x) _ (some (.join (some x) ret)) := .join
    by_cases ok : ret = .ok <;> simpa [ok] using treats

theorem detach_treats : Treats th (detach current th ret).th (detach current th ret).call := by
  unfold ManagedThread.detach
  cases able : joinable current th with
  | false => exact .untouched
  | true =>
    obtain ⟨x, rfl, -⟩ := joinable_iff.mp able
    refine .released (x := x) rfl (beq_self_eq_true _) (fun _ => rfl) fun y => ?_
    simp [OsCall.releases, eq_comm (a := x)]

/-- The destructor of an object that holds a thread joins it or terminates the program. -/
theorem destructor_holding {x : Thrd} (outside : current ≠ some x) :
    destructor current (some x) ret =
      ⟨if ret = .ok then .ok () else .terminated, some x, some (.join (some x) ret)⟩ := by
  rw [destructor, if_pos (joinable_iff.mpr ⟨x, rfl, outside⟩)]
  by_cases ok : ret = .ok <;> simp [ok]

end Members

/-! ### Runs -/

section Runs

variable [DecidableEq Obj] [DecidableEq Thrd] {current : ThreadHandle Thrd} {w w' : World Obj Thrd}
  {a : Action Obj Thrd} {o : Obj}

/-- Every operation on a thread comes before its release. -/
def Careful (calls : List (OsCall Thrd)) : Prop :=
  ∀ call earlier, call :: earlier <:+ calls → ∀ x, call.uses x = true → Owing earlier x

theorem careful_cons {call : OsCall Thrd} {calls : List (OsCall Thrd)} :
    Careful (call :: calls) ↔ (∀ x, call.uses x = true → Owing calls x) ∧ Careful calls := by
  constructor
  · intro careful
    exact ⟨careful call calls (List.suffix_refl _),
      fun c earlier suffix => careful c earlier (suffix.trans (List.suffix_cons call calls))⟩
  · rintro ⟨first, rest⟩ c earlier suffix
    rcases List.suffix_cons_iff.mp suffix with same | suffix
    · obtain ⟨rfl, rfl⟩ := List.cons.inj same
      exact first
    · exact rest c earlier suffix

/-- Every thread that is neither joined nor detached is held by one object, and no operation is
issued on any other. -/
structure Invariant (w : World Obj Thrd) : Prop where
  tokens : Tokens (fun o => (w.objs o).join) (Owing w.calls)
  careful : Careful w.calls

omit [DecidableEq Obj] in
theorem Invariant.start : Invariant (⟨fun _ => none, []⟩ : World Obj Thrd) where
  tokens := .empty fun _ => sees_nil
  careful _ _ suffix := absurd (List.suffix_nil.mp suffix) (by simp)

omit [DecidableEq Thrd] in
theorem held_after (w : World Obj Thrd) (o : Obj) (object : Option (ThreadHandle Thrd))
    (call : Option (OsCall Thrd)) : (fun p => ((w.after o object call).objs p).join) =
      Function.update (fun p => (w.objs p).join) o object.join :=
  Function.comp_update Option.join w.objs o object

theorem Invariant.swap (inv : Invariant w) (a b : Obj) : Invariant (w.swap a b) where
  tokens := by
    have swapped : (w.swap a b).objs = w.objs ∘ Equiv.swap b a :=
      (Equiv.comp_swap_eq_update b a w.objs).symm
    rw [swapped]
    exact inv.tokens.swap (p := b) (q := a)
  careful := inv.careful

omit [DecidableEq Obj] in
theorem Invariant.handle {x : Thrd} (inv : Invariant w) (holds : w.objs o = some (some x)) :
    Owing w.calls x :=
  (inv.tokens.owed_iff x).mpr ⟨o, by simp [holds]⟩

theorem Invariant.create (inv : Invariant w) (free : w.objs o = none) {x : Thrd}
    (fresh : ¬ Owing w.calls x) :
    Invariant (w.after o (some (some x)) (some (.create x))) where
  tokens := by
    rw [held_after]
    refine inv.tokens.put (by simp [free]) fresh fun y => ?_
    show Owing (.create x :: w.calls) y ↔ _
    rw [Owing, sees_cons]
    simp [OsCall.creates, OsCall.releases, eq_comm (a := x)]
  careful := by
    refine careful_cons.mpr ⟨fun y used => ?_, inv.careful⟩
    simp [OsCall.uses] at used

/-- An object whose handle was treated is left with what remains of it. -/
theorem Invariant.treat (inv : Invariant w) {th th' : ThreadHandle Thrd}
    {call : Option (OsCall Thrd)} {object : Option (ThreadHandle Thrd)}
    (here : (w.objs o).join = th) (treats : Treats th th' call) (left : object.join = th') :
    Invariant (w.after o object call) := by
  subst left
  have careful {c : OsCall Thrd} {x : Thrd} (holds : (w.objs o).join = some x)
      (uses : c.uses x = true) : Careful (c :: w.calls) := by
    refine careful_cons.mpr ⟨fun y used => ?_, inv.careful⟩
    have same : y = x := by
      cases c <;> simp_all [OsCall.uses]
    exact (inv.tokens.owed_iff y).mpr ⟨o, same ▸ holds⟩
  generalize remains : object.join = th' at treats
  cases treats with
  | untouched =>
    refine ⟨?_, inv.careful⟩
    rw [held_after, remains, ← here, Function.update_eq_self]
    exact inv.tokens
  | refused holds uses old kept =>
    refine ⟨?_, careful (here.trans holds) uses⟩
    rw [held_after, remains, ← here, Function.update_eq_self]
    refine inv.tokens.congr fun y => ?_
    show Owing (_ :: w.calls) y ↔ _
    rw [Owing, sees_cons, old, kept]
    simp
  | released holds uses old gone =>
    refine ⟨?_, careful (here.trans holds) uses⟩
    rw [held_after, remains]
    refine inv.tokens.take (here.trans holds) fun y => ?_
    show Owing (_ :: w.calls) y ↔ _
    rw [Owing, sees_cons, old, ← Bool.not_eq_true, gone]
    simp

/-- Under the two conditions on an action, every action that the program survives keeps the
invariant, and every action at all only uses threads that are neither joined nor detached. -/
theorem Invariant.perform (inv : Invariant w) (allowed : Allowed current w a) {out : Outcome Unit}
    (done : w.perform current a = some (out, w')) :
    Careful w'.calls ∧ (out = .ok () → Invariant w') := by
  have kept (h : Invariant w') : Careful w'.calls ∧ (out = .ok () → Invariant w') :=
    ⟨h.careful, fun _ => h⟩
  cases a with
  | null o =>
    obtain ⟨free, -, rfl⟩ := by simpa [World.perform] using done
    exact kept (inv.treat (by simp [free]) .untouched rfl)
  | ctor o created =>
    cases created with
    | ok x =>
      obtain ⟨free, -, rfl⟩ := by simpa [World.perform] using done
      exact kept (inv.create free (allowed.fresh o x rfl))
    | error e =>
      obtain ⟨-, rfl⟩ := by simpa [World.perform] using done
      exact kept inv
  | moveConstruct o other =>
    obtain ⟨⟨free, -⟩, -, rfl⟩ := by simpa [World.perform] using done
    exact kept ((inv.treat (by simp [free]) .untouched rfl).swap o other)
  | moveAssign o other =>
    obtain ⟨-, -, rfl⟩ := by simpa [World.perform] using done
    exact kept (inv.swap o other)
  | swap a b =>
    obtain ⟨-, -, rfl⟩ := by simpa [World.perform] using done
    exact kept (inv.swap a b)
  | join o ret code =>
    obtain ⟨th, here, -, rfl⟩ := by simpa [World.perform] using done
    exact kept (inv.treat (by simp [here]) (join_treats code) rfl)
  | detach o ret =>
    obtain ⟨th, here, -, rfl⟩ := by simpa [World.perform] using done
    exact kept (inv.treat (by simp [here]) detach_treats rfl)
  | destroy o ret =>
    obtain ⟨th, here, rfl, rfl⟩ := by simpa [World.perform] using done
    cases th with
    | none => exact kept (inv.treat (by simp [here]) .untouched rfl)
    | some x =>
      have join : Treats (some x) _ (some (.join (some x) ret)) := .join
      rw [destructor_holding (allowed.outside x (inv.handle here))]
      by_cases ok : ret = .ok
      · rw [if_pos ok] at join ⊢
        have joined : Invariant (w.after o none (some (.join (some x) ret))) :=
          inv.treat (by simp [here]) join rfl
        exact ⟨joined.careful, fun _ => joined⟩
      · rw [if_neg ok] at join ⊢
        have refused : Invariant (w.after o (some (some x)) (some (.join (some x) ret))) :=
          inv.treat (by simp [here]) join rfl
        exact ⟨refused.careful, by simp⟩

theorem invariant_of_run (run : Run w) : Invariant w := by
  induction run with
  | start => exact .start
  | step _ allowed done ih => exact (ih.perform allowed done).2 rfl

/-- Every thread has one owner, which holds it until it is joined or detached. No thread is used
after that. A join that fails leaves the object as it was, and the destruction of an object that
holds a thread joins it or ends the program. -/
theorem one_owner (run : Run w) :
    (∀ x o₁ o₂, w.objs o₁ = some (some x) → w.objs o₂ = some (some x) → o₁ = o₂) ∧
    (∀ x, Owing w.calls x ↔ ∃ o, w.objs o = some (some x)) ∧
    ∀ current a out w', Allowed current w a → w.perform current a = some (out, w') →
      (∀ call earlier, call :: earlier <:+ w'.calls →
        ∀ x, call.uses x = true → Owing earlier x) ∧
      (∀ o ret code x, a = .join o ret code → w.objs o = some (some x) → ret ≠ .ok →
        (join current (some x) ret code).ret = .error .operationFailed ∧ w'.objs = w.objs ∧
          joinable current (some x) = true) ∧
      (∀ o ret x, a = .destroy o ret → w.objs o = some (some x) →
        w'.calls = .join (some x) ret :: w.calls ∧ (out = .ok () ↔ ret = .ok)) := by
  have inv := invariant_of_run run
  have held (o : Obj) (x : Thrd) : w.objs o = some (some x) ↔ (w.objs o).join = some x := by
    simp [Option.join_eq_some_iff]
  refine ⟨fun x o₁ o₂ h₁ h₂ => ?_, fun x => ?_, fun current a out w' allowed done => ?_⟩
  · exact inv.tokens.apart o₁ o₂ x ((held o₁ x).mp h₁) ((held o₂ x).mp h₂)
  · simp only [held]
    exact inv.tokens.owed_iff x
  refine ⟨(inv.perform allowed done).1, ?_, ?_⟩
  · rintro o ret code x rfl here refused
    have able : joinable current (some x) = true :=
      joinable_iff.mpr ⟨x, rfl, allowed.outside x (inv.handle here)⟩
    obtain ⟨-, rfl⟩ := by simpa [World.perform, here] using done
    refine ⟨by simp [ManagedThread.join, able, refused], ?_, able⟩
    simp [World.after, ManagedThread.join, able, refused, ← here]
  · rintro o ret x rfl here
    have outside := allowed.outside x (inv.handle here)
    obtain ⟨rfl, rfl⟩ := by simpa [World.perform, here] using done
    rw [destructor_holding outside]
    refine ⟨rfl, ?_⟩
    by_cases ok : ret = .ok <;> simp [ok]

/-- A thread is created and moved to another object, where a join of it fails. -/
theorem one_owner_moved : ∃ w w' : World Bool Nat, Run w ∧
    w.perform (some 0) (.join true .error 0) = some (.ok (), w') ∧ w'.objs = w.objs ∧
    ∀ o, w.objs o = some (some 7) → o = true := by
  have begun : Run (⟨fun _ => none, []⟩ : World Bool Nat) := .start
  have first : Allowed (some 0) (⟨fun _ => none, []⟩ : World Bool Nat) (.ctor false (.ok 7)) :=
    ⟨fun _ owing => absurd owing sees_nil, fun _ _ _ owing => absurd owing sees_nil⟩
  have created := begun.step first rfl
  have outside (x : Nat) (owing : Owing [.create 7] x) : some 0 ≠ some x := by
    obtain rfl : 7 = x := by simpa [sees_cons, sees_nil, OsCall.creates] using owing
    decide
  have moved := created.step (a := .moveConstruct true false) ⟨outside, by simp⟩ rfl
  have owner := one_owner moved
  have refused := owner.2.2 (some 0) (.join true .error 0) _ _ ⟨outside, by simp⟩ rfl
  exact ⟨_, _, moved, rfl, (refused.2.1 true .error 0 7 rfl rfl (by decide)).2.1,
    fun o held => owner.1 7 o true held rfl⟩

end Runs

end LibCxxExt.Threading.ManagedThread
