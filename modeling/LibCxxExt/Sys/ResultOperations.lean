import LibCxxExt.Sys.ResultSpec

/-! The operations of `sys::result` on a pool of results: construction, destruction, assignment, the
conversion to a result without an error type, taking the value or the error, and `swap`. -/

namespace LibCxxExt.Sys.Result

open LibCxxExt.ProofKit

variable {V E : Type}

section Operations

variable {throws : Site → Nat → Bool} {abort : Prop} {c : Pool V E} {a : Addr} {ty : ResultType}

theorem Models.object_bind {α : Type} {k : Content V E} {f : Object V E → Exec (World V E) α}
    {Q : α → World V E → Prop} {X : World V E → Prop} (hc : c a = some (ty, k))
    (h : ∀ o : Object V E, o.ty = ty → o.content = k → o.Agrees →
      Triple abort (Models c) (f o) Q X) : Triple abort (Models c) (object a >>= f) Q X := by
  apply Models.triple hc
  intro o hty hk agrees
  apply Result.object_bind
  intro w hw
  have same : c a = some o.entry := by rw [hc, Object.entry, hty, hk]
  exact h o hty hk agrees w (hw.restore agrees same)

theorem Models.setStatus {k k' : Content V E} {status : Status} {X : World V E → Prop}
    (hc : c a = some (ty, k))
    (turns : ∀ o : Object V E, o.ty = ty → o.content = k → o.Agrees →
      Object.Agrees { o with status } ∧ Object.content { o with status } = k') :
    Triple abort (Models c) (setStatus a status)
      (fun _ => Models (Function.update c a (some (ty, k')))) X := by
  apply Models.triple hc
  intro o hty hk agrees
  obtain ⟨agrees', rfl⟩ := turns o hty hk agrees
  subst hty
  exact Triple.post (setStatus_spec status) fun _ w hw => hw.settle agrees'

theorem Object.good_of_ok {o : Object V E} (ok : o.status = .ok) (agrees : o.Agrees) :
    (o.ty.T.isVoid = true ∧ o.content = .good none) ∨
      (o.ty.T.isVoid = false ∧ ∃ v, o.content = .good (some v)) := by
  rcases Object.ok_cases ok agrees with
    ⟨p, id, v, hT, -, good⟩ | ⟨v, hT, -, good⟩ | ⟨hT, -, good⟩
  · exact .inr ⟨by rw [hT]; rfl, v, good⟩
  · exact .inr ⟨by rw [hT]; rfl, v, good⟩
  · exact .inl ⟨by rw [hT]; rfl, good⟩

theorem Object.bad_of_error {o : Object V E} (error : o.status = .error) (agrees : o.Agrees) :
    (o.ty.Err.isVoid = true ∧ o.content = .bad none) ∨
      (o.ty.Err.isVoid = false ∧ ∃ e, o.content = .bad (some e)) := by
  rcases Object.error_cases error agrees with
    ⟨p, id, e, hE, -, bad⟩ | ⟨e, hE, -, bad⟩ | ⟨hE, -, bad⟩
  · exact .inr ⟨by rw [hE]; rfl, e, bad⟩
  · exact .inr ⟨by rw [hE]; rfl, e, bad⟩
  · exact .inl ⟨by rw [hE]; rfl, bad⟩

theorem Kind.void_of_isVoid {k : Kind} (h : k.isVoid = true) : k = .void := by
  cases k <;> simp_all [Kind.isVoid]

theorem Models.setStatus_ok {X : World V E → Prop} (hc : c a = some (ty, .empty))
    (void : ty.T.isVoid = true) :
    Triple abort (Models c) (Result.setStatus a .ok)
      (fun _ => Models (Function.update c a (some (ty, .good none)))) X := by
  apply Models.setStatus hc
  intro o hty empty agrees
  have hT : o.ty.T = .void := by rw [hty, Kind.void_of_isVoid void]
  have vacant := Object.vacant_of_empty agrees empty
  constructor
  · simpa [Object.Agrees, hT] using vacant
  · simp [Object.content, hT]

theorem Models.setStatus_error {X : World V E → Prop} (hc : c a = some (ty, .empty))
    (void : ty.Err.isVoid = true) :
    Triple abort (Models c) (Result.setStatus a .error)
      (fun _ => Models (Function.update c a (some (ty, .bad none)))) X := by
  apply Models.setStatus hc
  intro o hty empty agrees
  have hE : o.ty.Err = .void := by rw [hty, Kind.void_of_isVoid void]
  have vacant := Object.vacant_of_empty agrees empty
  constructor
  · simpa [Object.Agrees, hE] using vacant
  · simp [Object.content, hE]

/-- The contents that keep nothing in the storage of a result of type `ty`. -/
def ResultType.Bare (ty : ResultType) : Content V E → Prop
  | .good _ => ty.T.isVoid = true
  | .bad _ => ty.Err.isVoid = true
  | .empty => True

theorem Models.setStatus_empty {k : Content V E} {X : World V E → Prop} (hc : c a = some (ty, k))
    (bare : ty.Bare k) :
    Triple abort (Models c) (Result.setStatus a .empty)
      (fun _ => Models (Function.update c a (some (ty, .empty)))) X := by
  refine Models.setStatus hc fun o hty hk agrees => ⟨?_, rfl⟩
  subst hty hk
  cases status : o.status with
  | ok =>
    have hT : o.ty.T = .void :=
      Kind.void_of_isVoid (by simpa [Object.content, status, ResultType.Bare] using bare)
    simpa [Object.Agrees, status, hT] using agrees
  | error =>
    have hE : o.ty.Err = .void :=
      Kind.void_of_isVoid (by simpa [Object.content, status, ResultType.Bare] using bare)
    simpa [Object.Agrees, status, hE] using agrees
  | empty => simpa [Object.Agrees, status] using agrees

/-- A throwing move of the value is one of the reasons for which a move of the result may throw. -/
theorem Threw.value (h : Threw throws (ty.T.isLvalue || ty.T.nothrowMove))
    (valued : ty.T.isVoid = false) : Threw throws ty.nothrowMove :=
  ⟨by simp [ResultType.nothrowMove, h.unpromised, valued], h.thrown⟩

theorem Threw.error (h : Threw throws (ty.Err.isLvalue || ty.Err.nothrowMove))
    (valued : ty.Err.isVoid = false) : Threw throws ty.nothrowMove :=
  ⟨by simp [ResultType.nothrowMove, h.unpromised, valued], h.thrown⟩

/-- A status byte that stands for the whole content is handed over. -/
theorem handOver_spec {this other : Addr} {k : Content V E} {X : World V E → Prop}
    {mark : Exec (World V E) Unit}
    (marked : Triple abort (Models c) mark (fun _ => Models (Function.update c this (some (ty, k))))
      X)
    (hother : c other = some (ty, k)) (hne : this ≠ other) (bare : ty.Bare k) :
    Triple abort (Models c) (do mark; Result.setStatus other .empty)
      (fun _ => Models
        (Function.update (Function.update c other (some (ty, .empty))) this (some (ty, k)))) X := by
  refine Triple.bind marked fun _ => ?_
  refine Triple.post (Models.setStatus_empty (k := k) ?_ bare) ?_
  · rw [Function.update_of_ne hne.symm, hother]
  · intro _ w hw
    rwa [Function.update_comm hne.symm]

/-- The second half of a move construction or assignment: `this` gets what `other` had. -/
theorem takeFrom_spec {this other : Addr} {k : Content V E} (hthis : c this = some (ty, .empty))
    (hother : c other = some (ty, k)) (hne : this ≠ other)
    (licence : (∃ n, throws .putError n = true) → abort) :
    Triple abort (Models c) (takeFrom throws ty this other)
      (fun _ => Models
        (Function.update (Function.update c other (some (ty, .empty))) this (some (ty, k))))
      (fun w => Threw throws ty.nothrowMove ∧
        (Models c w ∨ Models (Function.update c other (some (ty, .empty))) w)) := by
  refine Models.object_bind hother fun o hty hk agrees => ?_
  subst hty hk
  have hthis' : Function.update c other (some (o.ty, .empty)) this = some (o.ty, .empty) := by
    rw [Function.update_of_ne hne, hthis]
  cases status : o.status with
  | ok =>
    rcases Object.good_of_ok status agrees with ⟨void, good⟩ | ⟨valued, v, good⟩
    · simp only [void, if_true]
      rw [good] at hother ⊢
      exact handOver_spec (Models.setStatus_ok hthis void) hother hne void
    · simp only [valued, Bool.false_eq_true, if_false]
      rw [good] at hother
      refine Triple.bind (Triple.thrown (moveUnsafe_spec hother) ?_) fun ret => Triple.of_and ?_
      · intro w ⟨threw, lost⟩
        exact ⟨threw.value valued, lost⟩
      rintro rfl
      rw [good]
      refine Triple.thrown (ctorOk_spec hthis' valued) ?_
      intro w ⟨threw, lost⟩
      exact ⟨threw.value valued, .inr lost⟩
  | error =>
    rcases Object.bad_of_error status agrees with ⟨void, bad⟩ | ⟨valued, e, bad⟩
    · simp only [void, if_true]
      rw [bad] at hother ⊢
      exact handOver_spec (Models.setStatus_error hthis void) hother hne void
    · simp only [valued, Bool.false_eq_true, if_false]
      rw [bad] at hother
      refine Triple.bind (Triple.thrown (errUnsafe_spec hother) ?_) fun ret => Triple.of_and ?_
      · intro w ⟨threw, lost⟩
        exact ⟨threw.error valued, lost⟩
      rintro rfl
      rw [bad]
      exact Triple.thrown (ctorErr_spec hthis' valued fun _ => licence) fun _ no => no.elim
  | empty =>
    have empty : o.content = .empty := by simp [Object.content, status]
    rw [empty] at hother
    refine Triple.post (Models.setStatus_empty hother trivial) ?_
    intro _ w hw
    rwa [empty, Function.update_eq_self_iff.mpr hthis'.symm]

theorem allocate_spec {X : World V E → Prop} (hc : c a = none) (ty : ResultType) :
    Triple abort (Models c) (allocate a ty)
      (fun _ => Models (Function.update c a (some (ty, .empty)))) X := by
  intro w hw
  have free : w.held a = none := hw.held_of_none hc
  have focus : Focus c a { ty, status := .empty, storage := none }
      ⟨Function.update w.objects a _, w.born, w.died, w.attempts⟩ :=
    { ledger := by
        rw [held_update]
        exact hw.ledger.clear free
      here := Function.update_self ..
      agrees := fun b p hne hp => hw.agrees b p (by simpa [Function.update_of_ne hne] using hp)
      view := fun b hne => by
        rw [← hw.view]
        simp [World.view, Function.update_of_ne hne] }
  exact focus.settle rfl

theorem Focus.deallocate {o : Object V E} {X : World V E → Prop} (vacant : o.payload = none) :
    Triple abort (Focus c a o) (Result.deallocate a)
      (fun _ => Models (Function.update c a none)) X := by
  intro w hw
  have focus := hw.ledger.clear (hw.held.trans vacant)
  refine ⟨⟨?_, fun b p hp => ?_⟩, funext fun b => ?_⟩
  · rw [held_update]
    exact focus
  · have hne : b ≠ a := by
      rintro rfl
      simp at hp
    exact hw.agrees b p hne (by simpa [Function.update_of_ne hne] using hp)
  · rcases eq_or_ne b a with rfl | hne
    · simp [World.view]
    · rw [Function.update_of_ne hne, ← hw.view b hne]
      simp [World.view, Function.update_of_ne hne]

theorem deallocate_spec {X : World V E → Prop} (hc : c a = some (ty, .empty)) :
    Triple abort (Models c) (deallocate a) (fun _ => Models (Function.update c a none)) X :=
  Models.triple hc fun _ _ empty agrees =>
    Focus.deallocate (Object.vacant_of_empty agrees empty)

/-- What an exception leaves behind when the constructor of a result at `a` fails. -/
theorem deallocate_new {X : World V E → Prop} (hc : c a = none) :
    Triple abort (Models (Function.update c a (some (ty, .empty)))) (deallocate a)
      (fun _ => Models c) X := by
  refine Triple.post (deallocate_spec (Function.update_self ..)) ?_
  intro _ w hw
  rwa [Function.update_idem, Function.update_eq_self_iff.mpr hc.symm] at hw

theorem valueResult_spec {v : V} {nothrow : Bool} (hc : c a = none) (valued : ty.T.isVoid = false) :
    Triple abort (Models c) (valueResult throws ty a v nothrow)
      (fun _ => Models (Function.update c a (some (ty, .good (some v)))))
      (fun w => Threw throws (ty.T.isLvalue || nothrow) ∧ Models c w) := by
  refine Threw.noexceptIf ?_
  refine Triple.bind (allocate_spec hc ty) fun _ => ?_
  refine Triple.onThrow (Triple.post (ctorOk_spec (Function.update_self ..) valued) ?_) ?_
  · intro _ w hw
    rwa [Function.update_idem] at hw
  · apply Triple.of_and
    intro threw
    exact Triple.post (deallocate_new hc) fun _ _ hw => ⟨threw, hw⟩

theorem errorResult_spec {e : E} {nothrow single : Bool} (hc : c a = none)
    (valued : ty.Err.isVoid = false) (arity : single = false → ∃ p, ty.Err = .object p)
    (licence : (∃ n, throws .putError n = true) → abort) :
    Triple abort (Models c) (errorResult throws ty a e nothrow single)
      (fun _ => Models (Function.update c a (some (ty, .bad (some e)))))
      (fun w => Threw throws (ty.Err.isLvalue || nothrow) ∧ Models c w) := by
  refine Threw.noexceptIf ?_
  refine Triple.bind (allocate_spec hc ty) fun _ => ?_
  have new : Function.update c a (some (ty, .empty)) a = some (ty, .empty) :=
    Function.update_self ..
  refine Triple.onThrow (Q := fun _ => Models (Function.update c a (some (ty, .bad (some e)))))
    (M := fun w => Threw throws (ty.Err.isLvalue || nothrow) ∧
      Models (Function.update c a (some (ty, .empty))) w) ?_ ?_
  · cases hsingle : single with
    | true =>
      refine Triple.weaken (ctorErr_spec new valued fun _ => licence) ?_ fun _ no => no.elim
      intro _ w hw
      rwa [Function.update_idem] at hw
    | false =>
      obtain ⟨p, hE⟩ := arity hsingle
      refine Triple.weaken (ctorErrInplace_spec new hE) ?_ ?_
      · intro _ w hw
        rwa [Function.update_idem] at hw
      · intro w ⟨threw, lost⟩
        exact ⟨⟨by simp [hE, Kind.isLvalue, threw.unpromised], threw.thrown⟩, lost⟩
  · apply Triple.of_and
    intro threw
    exact Triple.post (deallocate_new hc) fun _ _ hw => ⟨threw, hw⟩

theorem moveResult_spec {this other : Addr} {k : Content V E} (hthis : c this = none)
    (hother : c other = some (ty, k)) (licence : (∃ n, throws .putError n = true) → abort) :
    Triple abort (Models c) (moveResult throws ty this other)
      (fun _ => Models
        (Function.update (Function.update c other (some (ty, .empty))) this (some (ty, k))))
      (fun w => Threw throws ty.nothrowMove ∧
        (Models c w ∨ Models (Function.update c other (some (ty, .empty))) w)) := by
  have hne : this ≠ other := by
    rintro rfl
    simp [hthis] at hother
  refine Threw.noexceptIf ?_
  refine Triple.bind (allocate_spec hthis ty) fun _ => ?_
  have hother' : Function.update c this (some (ty, .empty)) other = some (ty, k) := by
    rw [Function.update_of_ne hne.symm, hother]
  have taken := takeFrom_spec (Function.update_self ..) hother' hne licence
  refine Triple.onThrow (Triple.post taken ?_) ?_
  · intro _ w hw
    rwa [Function.update_comm hne, Function.update_idem] at hw
  · apply Triple.of_and
    intro threw
    apply Triple.of_or
    · exact Triple.post (deallocate_new hthis) fun _ _ hw => ⟨threw, .inl hw⟩
    · rw [Function.update_comm hne]
      refine Triple.post (deallocate_new ?_) fun _ _ hw => ⟨threw, .inr hw⟩
      rw [Function.update_of_ne hne, hthis]

/-- The first half of a destruction or a move assignment. -/
theorem destroyPayload_spec {k : Content V E} {X : World V E → Prop} (hc : c a = some (ty, k)) :
    Triple abort (Models c) (destroyPayload ty a)
      (fun _ w => ∃ o : Object V E, (o.ty = ty ∧ o.payload = none) ∧ Focus c a o w) X := by
  refine Models.triple hc fun o hty hk agrees => Result.object_bind ?_
  subst hty
  cases status : o.status with
  | empty =>
    have vacant : o.payload = none := by simpa [Object.Agrees, status] using agrees
    exact Triple.pure fun w hw => ⟨o, ⟨rfl, vacant⟩, hw⟩
  | ok =>
    rcases Object.ok_cases status agrees with
      ⟨p, id, v, hT, stored, -⟩ | ⟨v, hT, stored, -⟩ | ⟨hT, vacant, -⟩
    all_goals simp only [hT]
    · exact Triple.post (destroyValue_spec stored) fun _ w hw =>
        ⟨{ o with storage := none }, ⟨rfl, rfl⟩, hw⟩
    · exact Triple.pure fun w hw => ⟨o, ⟨rfl, by simp [Object.payload, stored]⟩, hw⟩
    · exact Triple.pure fun w hw => ⟨o, ⟨rfl, vacant⟩, hw⟩
  | error =>
    rcases Object.error_cases status agrees with
      ⟨p, id, e, hE, stored, -⟩ | ⟨e, hE, stored, -⟩ | ⟨hE, vacant, -⟩
    all_goals simp only [hE]
    · exact Triple.post (destroyError_spec stored) fun _ w hw =>
        ⟨{ o with storage := none }, ⟨rfl, rfl⟩, hw⟩
    · exact Triple.pure fun w hw => ⟨o, ⟨rfl, by simp [Object.payload, stored]⟩, hw⟩
    · exact Triple.pure fun w hw => ⟨o, ⟨rfl, vacant⟩, hw⟩

theorem destroy_spec {k : Content V E} {X : World V E → Prop} (hc : c a = some (ty, k)) :
    Triple abort (Models c) (destroy ty a) (fun _ => Models (Function.update c a none)) X := by
  refine Triple.noexcept (E := fun _ => False) ?_ fun _ no => no.elim
  exact Triple.bind (destroyPayload_spec hc) fun _ => Triple.of_exists fun o =>
    Triple.of_and fun ⟨_, vacant⟩ => Focus.deallocate vacant

theorem assign_spec {this other : Addr} {k k' : Content V E} (hthis : c this = some (ty, k'))
    (hother : c other = some (ty, k)) (hne : this ≠ other)
    (licence : (∃ n, throws .putError n = true) → abort) :
    Triple abort (Models c) (assign throws ty this other)
      (fun _ => Models
        (Function.update (Function.update c other (some (ty, .empty))) this (some (ty, k))))
      (fun w => Threw throws ty.nothrowMove ∧
        (Models (Function.update c this (some (ty, .empty))) w ∨
          Models (Function.update (Function.update c other (some (ty, .empty))) this
            (some (ty, .empty))) w)) := by
  refine Threw.noexceptIf ?_
  simp only [hne, if_false]
  refine Triple.bind (destroyPayload_spec hthis) fun _ => Triple.of_exists fun o =>
    Triple.of_and fun ⟨hty, vacant⟩ => ?_
  subst hty
  refine Triple.bind (Triple.post (setStatus_spec .empty) fun _ w hw => hw.settle vacant) ?_
  intro _
  have hother' : Function.update c this (some (o.ty, .empty)) other = some (o.ty, k) := by
    rw [Function.update_of_ne hne.symm, hother]
  refine Triple.weaken (takeFrom_spec (Function.update_self ..) hother' hne licence) ?_ ?_
  · intro _ w hw
    rwa [Function.update_comm hne, Function.update_idem] at hw
  · intro w lost
    rwa [Function.update_comm hne] at lost

theorem assign_self_spec {X : World V E → Prop} :
    Triple abort (Models c) (assign throws ty a a) (fun _ => Models c) X := by
  intro w hw
  have same : assign throws ty a a w = (.ok (), w) := by simp [assign, Exec.noexceptIf]
  rw [same]
  exact hw

/-- What a conversion to a result without an error type makes of the pool. The source of a good
result with a value is consumed, any other one stays as it was. -/
def Pool.converted (c : Pool V E) (ty : ResultType) (this ret : Addr) : Content V E → Pool V E
  | .good none => Function.update c ret (some (⟨ty.T, .void⟩, .good none))
  | .good (some v) =>
    Function.update (Function.update c this (some (ty, .empty))) ret
      (some (⟨ty.T, .void⟩, .good (some v)))
  | .bad _ => Function.update c ret (some (⟨ty.T, .void⟩, .bad none))
  | .empty => Function.update c ret (some (⟨ty.T, .void⟩, .empty))

theorem toVoidErr_spec {this ret : Addr} {k : Content V E} (hthis : c this = some (ty, k))
    (hret : c ret = none) :
    Triple abort (Models c) (toVoidErr throws ty this ret)
      (fun _ => Models (c.converted ty this ret k))
      (fun w => Threw throws (ty.T.isVoid || ty.T.isLvalue || ty.T.nothrowMove) ∧
        (Models c w ∨ Models (Function.update c this (some (ty, .empty))) w)) := by
  have hne : ret ≠ this := by
    rintro rfl
    simp [hret] at hthis
  refine Threw.noexceptIf ?_
  refine Models.object_bind hthis fun o hty hk agrees => ?_
  subst hty hk
  have allocated := Function.update_self ret
    (some ((⟨o.ty.T, .void⟩ : ResultType), (.empty : Content V E))) c
  cases status : o.status with
  | ok =>
    rcases Object.good_of_ok status agrees with ⟨void, good⟩ | ⟨valued, v, good⟩
    · simp only [void, if_true, good, Pool.converted]
      refine Triple.bind (allocate_spec hret _) fun _ => ?_
      refine Triple.post (Models.setStatus_ok allocated void) ?_
      intro _ w hw
      rwa [Function.update_idem] at hw
    · simp only [valued, Bool.false_eq_true, if_false, good, Pool.converted]
      rw [good] at hthis
      refine Triple.bind (Triple.thrown (moveUnsafe_spec hthis) ?_) fun v' => Triple.of_and ?_
      · intro w ⟨threw, lost⟩
        exact ⟨⟨by simp [threw.unpromised], threw.thrown⟩, lost⟩
      rintro rfl
      refine Triple.thrown (valueResult_spec ?_ valued) ?_
      · rw [Function.update_of_ne hne, hret]
      · intro w ⟨threw, lost⟩
        exact ⟨⟨by simp [threw.unpromised], threw.thrown⟩, .inr lost⟩
  | error =>
    obtain ⟨e, bad⟩ : ∃ e, o.content = .bad e := by simp [Object.content, status]
    simp only [bad, Pool.converted]
    refine Triple.bind (allocate_spec hret _) fun _ => ?_
    refine Triple.post (Models.setStatus_error allocated rfl) ?_
    intro _ w hw
    rwa [Function.update_idem] at hw
  | empty =>
    have empty : o.content = .empty := by simp [Object.content, status]
    simp only [empty, Pool.converted]
    exact allocate_spec hret _

theorem contractAssert_spec {k : Content V E} {expected : Status} (hc : c a = some (ty, k)) :
    Triple abort (Models c) (contractAssert a expected)
      (fun _ w => k.status = expected ∧ Models c w)
      (fun w => k.status ≠ expected ∧ Models c w) := by
  refine Models.object_bind hc fun o _ hk _ => ?_
  subst hk
  rw [Object.content_status]
  by_cases status : o.status = expected
  · rw [if_pos status]
    exact Triple.pure fun w hw => ⟨status, hw⟩
  · rw [if_neg status]
    exact Triple.throwing fun w hw => ⟨status, hw⟩

theorem Models.good {k : Content V E} {w : World V E} (h : Models c w) (hc : c a = some (ty, k))
    (ok : k.status = .ok) :
    (ty.T.isVoid = true ∧ k = .good none) ∨ (ty.T.isVoid = false ∧ ∃ v, k = .good (some v)) := by
  obtain ⟨o, ⟨rfl, rfl, agrees⟩, -⟩ := h.focus hc
  rw [Object.content_status] at ok
  exact Object.good_of_ok ok agrees

theorem Models.bad {k : Content V E} {w : World V E} (h : Models c w) (hc : c a = some (ty, k))
    (error : k.status = .error) :
    (ty.Err.isVoid = true ∧ k = .bad none) ∨ (ty.Err.isVoid = false ∧ ∃ e, k = .bad (some e)) := by
  obtain ⟨o, ⟨rfl, rfl, agrees⟩, -⟩ := h.focus hc
  rw [Object.content_status] at error
  exact Object.bad_of_error error agrees

/-- What is left when taking from the result at `a` threw, because the status was not `expected` or
because a construction threw. -/
def Untaken (throws : Site → Nat → Bool) (c : Pool V E) (a : Addr) (ty : ResultType)
    (k : Content V E) (expected : Status) (w : World V E) : Prop :=
  (k.status ≠ expected ∨ ∃ site n, throws site n = true) ∧
    (Models c w ∨ Models (Function.update c a (some (ty, .empty))) w)

theorem contractAssert_bind {α : Type} {k : Content V E} {expected : Status}
    {m : Exec (World V E) α} {Q : α → World V E → Prop} (hc : c a = some (ty, k))
    (h : k.status = expected → Triple abort (Models c) m Q (Untaken throws c a ty k expected)) :
    Triple abort (Models c) (do contractAssert a expected; m) Q
      (Untaken throws c a ty k expected) := by
  refine Triple.bind (Triple.thrown (contractAssert_spec hc) ?_) fun _ => Triple.of_and h
  intro w ⟨violated, hw⟩
  exact ⟨.inl violated, .inl hw⟩

theorem move_spec {k : Content V E} (hc : c a = some (ty, k)) (valued : ty.T.isVoid = false) :
    Triple abort (Models c) (move throws ty a)
      (fun v w => k = .good (some v) ∧ Models (Function.update c a (some (ty, .empty))) w)
      (Untaken throws c a ty k .ok) := by
  apply contractAssert_bind hc
  intro ok w hw
  obtain ⟨void, -⟩ | ⟨-, v, rfl⟩ := hw.good hc ok
  · simp [void] at valued
  · refine Triple.weaken (moveUnsafe_spec hc) ?_
      (fun _ ⟨threw, lost⟩ => ⟨.inr threw.thrown, lost⟩) w hw
    rintro v' w' ⟨rfl, hw'⟩
    exact ⟨rfl, hw'⟩

theorem err_spec {k : Content V E} (hc : c a = some (ty, k)) (valued : ty.Err.isVoid = false) :
    Triple abort (Models c) (err throws ty a)
      (fun e w => k = .bad (some e) ∧ Models (Function.update c a (some (ty, .empty))) w)
      (Untaken throws c a ty k .error) := by
  apply contractAssert_bind hc
  intro error w hw
  obtain ⟨void, -⟩ | ⟨-, e, rfl⟩ := hw.bad hc error
  · simp [void] at valued
  · refine Triple.weaken (errUnsafe_spec hc) ?_
      (fun _ ⟨threw, lost⟩ => ⟨.inr threw.thrown, lost⟩) w hw
    rintro e' w' ⟨rfl, hw'⟩
    exact ⟨rfl, hw'⟩

theorem expect_spec {k : Content V E} (hc : c a = some (ty, k)) :
    Triple abort (Models c) (expect throws ty a)
      (fun v w => k = .good v ∧ Models (Function.update c a (some (ty, .empty))) w)
      (Untaken throws c a ty k .ok) := by
  apply contractAssert_bind hc
  intro ok w hw
  obtain ⟨void, rfl⟩ | ⟨valued, v, rfl⟩ := hw.good hc ok
  · simp only [void, if_true]
    exact Triple.bind (Models.setStatus_empty hc void)
      (fun _ => Triple.pure fun w' hw' => ⟨rfl, hw'⟩) w hw
  · simp only [valued, Bool.false_eq_true, if_false]
    refine Triple.bind (Triple.thrown (moveUnsafe_spec hc)
      (fun _ ⟨threw, lost⟩ => ⟨.inr threw.thrown, lost⟩)) (fun v' => ?_) w hw
    exact Triple.pure fun w' ⟨same, hw'⟩ => ⟨by rw [same], hw'⟩

theorem expectErr_spec {k : Content V E} (hc : c a = some (ty, k)) :
    Triple abort (Models c) (expectErr throws ty a)
      (fun e w => k = .bad e ∧ Models (Function.update c a (some (ty, .empty))) w)
      (Untaken throws c a ty k .error) := by
  apply contractAssert_bind hc
  intro error w hw
  obtain ⟨void, rfl⟩ | ⟨valued, e, rfl⟩ := hw.bad hc error
  · simp only [void, if_true]
    exact Triple.bind (Models.setStatus_empty hc void)
      (fun _ => Triple.pure fun w' hw' => ⟨rfl, hw'⟩) w hw
  · simp only [valued, Bool.false_eq_true, if_false]
    refine Triple.bind (Triple.thrown (errUnsafe_spec hc)
      (fun _ ⟨threw, lost⟩ => ⟨.inr threw.thrown, lost⟩)) (fun e' => ?_) w hw
    exact Triple.pure fun w' ⟨same, hw'⟩ => ⟨by rw [same], hw'⟩

/-- `move_or(...)`: the value of a good result, which is consumed, else the alternative. -/
theorem moveOr_spec {k : Content V E} {other : V} {nothrow : Bool} (hc : c a = some (ty, k))
    (valued : ty.T.isVoid = false) :
    Triple abort (Models c) (moveOr throws ty a other nothrow)
      (fun v w => (k = .good (some v) ∧ Models (Function.update c a (some (ty, .empty))) w) ∨
        (k.status ≠ .ok ∧ v = other ∧ Models c w))
      (fun w => Threw throws (ty.T.isLvalue || (ty.T.nothrowMove && nothrow)) ∧
        (Models c w ∨ Models (Function.update c a (some (ty, .empty))) w)) := by
  refine Threw.noexceptIf ?_
  refine Models.object_bind hc fun o _ hk _ => ?_
  rw [← Object.content_status, hk]
  by_cases ok : k.status = .ok
  · simp only [ok, ne_eq, not_true_eq_false, if_false]
    intro w hw
    obtain ⟨void, -⟩ | ⟨-, v, rfl⟩ := hw.good hc ok
    · simp [void] at valued
    · refine Triple.weaken (moveUnsafe_spec hc) ?_
        (fun _ ⟨threw, lost⟩ => ⟨⟨?_, threw.thrown⟩, lost⟩) w hw
      · rintro v' w' ⟨rfl, hw'⟩
        exact .inl ⟨rfl, hw'⟩
      · have unpromised := threw.unpromised
        simp_all
  · simp only [ok, ne_eq, not_false_eq_true, if_true]
    refine Models.triple hc fun o hty hk agrees => ?_
    have same : c a = some o.entry := by rw [hc, Object.entry, hty, hk]
    refine Triple.bind (attempt_spec fun w may does hw => ?_) fun _ => ?_
    · obtain ⟨reference, may⟩ := Bool.or_eq_false_iff.mp may
      exact ⟨⟨by simp [reference, may], _, does⟩, .inl (hw.restore agrees same)⟩
    · exact Triple.pure fun w hw => .inr ⟨trivial, rfl, hw.restore agrees same⟩

/-- An assignment that throws leaves every other result alone. -/
theorem assign_keeps {this other tmp : Addr} {k k' kt : Content V E}
    (hthis : c this = some (ty, k')) (hother : c other = some (ty, k)) (hne : this ≠ other)
    (htmp : c tmp = some (ty, kt)) (hthistmp : this ≠ tmp)
    (licence : (∃ n, throws .putError n = true) → abort) :
    Triple abort (Models c) (assign throws ty this other)
      (fun _ => Models
        (Function.update (Function.update c other (some (ty, .empty))) this (some (ty, k))))
      (fun w => Threw throws ty.nothrowMove ∧ ∃ p, (∃ k, p tmp = some (ty, k)) ∧ Models p w) := by
  refine Triple.thrown (assign_spec hthis hother hne licence) ?_
  rintro w ⟨threw, hw | hw⟩
  · refine ⟨threw, _, ⟨kt, ?_⟩, hw⟩
    rw [Function.update_of_ne hthistmp.symm, htmp]
  · refine ⟨threw, _, ?_, hw⟩
    rw [Function.update_of_ne hthistmp.symm]
    rcases eq_or_ne tmp other with rfl | hne'
    · exact ⟨.empty, Function.update_self ..⟩
    · exact ⟨kt, by rw [Function.update_of_ne hne', htmp]⟩

/-- Whatever an exception leaves behind, `tmp` is a result that its destructor can take down. -/
theorem destroy_thrown {tmp : Addr} :
    Triple abort
      (fun w : World V E =>
        Threw throws ty.nothrowMove ∧ ∃ p, (∃ k, p tmp = some (ty, k)) ∧ Models p w)
      (destroy ty tmp) (fun _ w => Threw throws ty.nothrowMove ∧ Sound w) (fun _ => False) := by
  apply Triple.of_and
  intro threw
  apply Triple.of_exists
  intro p
  apply Triple.of_and
  intro ⟨k, hp⟩
  exact Triple.post (destroy_spec hp) fun _ _ hw => ⟨threw, hw.toSound⟩

/-- Three moves through `tmp`: `x` goes to `tmp`, `y` to `x` and `tmp` to `y`. -/
theorem rotate_spec {x y tmp : Addr} {kx ky : Content V E} (hx : c x = some (ty, kx))
    (hy : c y = some (ty, ky)) (htmp : c tmp = none)
    (licence : (∃ n, throws .putError n = true) → abort) :
    Triple abort (Models c)
      (do
        moveResult throws ty tmp x
        Exec.atExit (do assign throws ty x y; assign throws ty y tmp) (destroy ty tmp))
      (fun _ => Models (Function.update (Function.update c x (some (ty, ky))) y (some (ty, kx))))
      (fun w => Threw throws ty.nothrowMove ∧ Sound w) := by
  have hxt : x ≠ tmp := by
    rintro rfl
    simp [hx] at htmp
  have hyt : y ≠ tmp := by
    rintro rfl
    simp [hy] at htmp
  refine Triple.bind (Triple.thrown (moveResult_spec htmp hx licence) ?_) fun _ => ?_
  · rintro w ⟨threw, hw | hw⟩
    · exact ⟨threw, hw.toSound⟩
    · exact ⟨threw, hw.toSound⟩
  let rotated := Function.update (Function.update (Function.update c x (some (ty, ky))) y
    (some (ty, kx))) tmp (some (ty, .empty))
  have last : ∀ p : Pool V E, p y = some (ty, .empty) → p tmp = some (ty, kx) →
      Function.update (Function.update p tmp (some (ty, .empty))) y (some (ty, kx)) = rotated →
      Triple abort (Models p) (assign throws ty y tmp) (fun _ => Models rotated)
        (fun w => Threw throws ty.nothrowMove ∧ ∃ p, (∃ k, p tmp = some (ty, k)) ∧ Models p w) :=
    fun p hpy hpt final => final ▸ assign_keeps hpy hpt hyt hpt hyt licence
  have emptied : Function.update (Function.update c x (some (ty, .empty))) tmp (some (ty, kx)) x =
      some (ty, .empty) := by
    rw [Function.update_of_ne hxt, Function.update_self]
  refine Triple.atExit (R := fun _ => Models rotated) ?_ (fun _ => ?_) destroy_thrown
  · rcases eq_or_ne x y with rfl | hxy
    · refine Triple.bind assign_self_spec fun _ => last _ emptied (Function.update_self ..) ?_
      funext z
      simp only [rotated, Function.update_apply]
      split_ifs <;> simp_all
    · refine Triple.bind (assign_keeps (k := ky) emptied ?_ hxy (Function.update_self ..) hxt
        licence) fun _ => last _ ?_ ?_ ?_
      · rw [Function.update_of_ne hyt, Function.update_of_ne hxy.symm, hy]
      · rw [Function.update_of_ne hxy.symm, Function.update_self]
      · rw [Function.update_of_ne hxt.symm, Function.update_of_ne hyt.symm, Function.update_self]
      · funext z
        simp only [rotated, Function.update_apply]
        split_ifs <;> simp_all
  · refine Triple.post (destroy_spec (Function.update_self ..)) ?_
    intro _ w hw
    rwa [Function.update_idem, Function.update_eq_self_iff.mpr] at hw
    rw [Function.update_of_ne hyt.symm, Function.update_of_ne hxt.symm, htmp]

theorem swap_spec {a b tmp : Addr} {ka kb : Content V E} (ha : c a = some (ty, ka))
    (hb : c b = some (ty, kb)) (htmp : c tmp = none)
    (licence : (∃ n, throws .putError n = true) → abort) :
    Triple abort (Models c) (swap throws ty a b tmp)
      (fun _ => Models (Function.update (Function.update c a (some (ty, kb))) b (some (ty, ka))))
      (fun w => (∃ site n, throws site n = true) ∧ Sound w) := by
  have both : Function.update (Function.update c b (some (ty, ka))) a (some (ty, kb)) =
      Function.update (Function.update c a (some (ty, kb))) b (some (ty, ka)) := by
    rcases eq_or_ne a b with rfl | hne
    · obtain rfl : kb = ka := (Prod.mk.inj (Option.some.inj (hb.symm.trans ha))).2
      rfl
    · exact (Function.update_comm hne ..).symm
  refine Triple.thrown (E := fun w => Threw throws ty.nothrowMove ∧ Sound w)
    (Triple.noexceptIf ?_ ?_) fun w ⟨threw, hw⟩ => ⟨threw.thrown, hw⟩
  · apply Models.object_bind hb
    intro o _ _ _
    cases movesSecondFirst ty o.status with
    | true => exact both ▸ rotate_spec hb ha htmp licence
    | false => exact rotate_spec ha hb htmp licence
  · intro promised w ⟨threw, _⟩
    have unpromised := threw.unpromised
    simp_all [ResultType.nothrowMove]

end Operations

end LibCxxExt.Sys.Result
