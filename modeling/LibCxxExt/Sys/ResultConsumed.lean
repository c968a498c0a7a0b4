import LibCxxExt.Sys.ResultLedger
import LibCxxExt.Sys.ResultSpecializations

/-! Whether a consumed result is empty, for the primary template and the two specialisations. Each
of them leaves a result good or bad in cases of its own. -/

namespace LibCxxExt.Sys.Result

open LibCxxExt.ProofKit

variable {V E : Type}

def World.Emptied (w : World V E) (source : Addr) : Prop :=
  ∀ o, w.objects source = some o → o.toBool = false ∧ o.not = false

def Call.Consumes (call : Call V E) (source : Addr) : Prop :=
  match call.op with
  | .moveResult _ other => source = other
  | .assign this other => source = other ∧ this ≠ other
  | .move this => source = this
  | .expect this => source = this
  | .err this => source = this
  | .expectErr this => source = this
  | .toVoidErr this _ => source = this
  | _ => False

/-- The conversions that leave their source as it was: those of a bad result, and those of a good
result without a value. -/
def Call.KeepsSource (call : Call V E) (c : Pool V E) : Prop :=
  match call.op with
  | .toVoidErr this _ =>
    (∃ e, c this = some (call.ty, .bad e)) ∨
      (call.ty.T.isVoid = true ∧ ∃ v, c this = some (call.ty, .good v))
  | _ => False

theorem Models.emptied_iff {c : Pool V E} {w : World V E} {a : Addr} {ty : ResultType}
    {k : Content V E} (h : Models c w) (hc : c a = some (ty, k)) :
    w.Emptied a ↔ k.status = .empty := by
  obtain ⟨o, ⟨-, rfl, -⟩, focus⟩ := h.focus hc
  rw [Object.content_status]
  cases status : o.status <;> simp [World.Emptied, focus.here, Object.toBool, Object.not, status]

def Content.kept : Content V E → Content V E
  | .good (some _) => .empty
  | k => k

theorem Pool.converted_source {c : Pool V E} {ty : ResultType} {this ret : Addr} (k : Content V E)
    (hthis : c this = some (ty, k)) (hret : c ret = none) :
    c.converted ty this ret k this = some (ty, k.kept) := by
  have hne : this ≠ ret := by
    rintro rfl
    simp [hret] at hthis
  cases k with
  | good v => cases v <;> simp [Pool.converted, Content.kept, Function.update_of_ne hne, hthis]
  | bad e => simp [Pool.converted, Content.kept, Function.update_of_ne hne, hthis]
  | empty => simp [Pool.converted, Content.kept, Function.update_of_ne hne, hthis]

/-- A call of the primary template that returns empties what it consumes, a conversion that keeps
its source apart. -/
theorem Call.emptied_iff {call : Call V E} {w w' : World V E} {source : Addr} {ret : Ret V E}
    (sound : Sound w) (valid : call.Valid w.view) (consumes : call.Consumes source)
    (returns : call.exec w = (.ok ret, w')) :
    w'.Emptied source ↔ ¬ call.KeepsSource w.view := by
  have ended := Call.spec valid (fun _ => True.intro) w sound.models
  rw [returns] at ended
  obtain ⟨c', effect, models⟩ := ended
  have free : (∀ c : Pool V E, ¬ call.KeepsSource c) → c' source = some (call.ty, .empty) →
      (w'.Emptied source ↔ ¬ call.KeepsSource w.view) := fun never empty =>
    iff_of_true ((models.emptied_iff empty).mpr rfl) (never _)
  obtain ⟨ty, op, throws⟩ := call
  cases op with
  | value | error | swap | moveOr | destroy => exact consumes.elim
  | moveResult this other =>
    obtain rfl : source = other := consumes
    obtain ⟨k, hother, rfl⟩ := effect
    have hne : source ≠ this := by
      rintro rfl
      obtain ⟨-, gone, -⟩ := valid
      rw [gone] at hother
      cases hother
    exact free (fun _ no => no) (by rw [Function.update_of_ne hne, Function.update_self])
  | assign this other =>
    obtain ⟨rfl, hne⟩ := consumes
    obtain ⟨k, hother, rfl⟩ := effect
    refine free (fun _ no => no) ?_
    rw [if_neg hne, Function.update_of_ne hne.symm, Function.update_self]
  | move this | expect this | err this | expectErr this =>
    obtain rfl : source = this := consumes
    obtain ⟨_, -, -, rfl⟩ := effect
    exact free (fun _ no => no) (Function.update_self ..)
  | toVoidErr this ret =>
    obtain rfl : source = this := consumes
    obtain ⟨k, hthis, rfl⟩ := effect
    obtain ⟨-, -, hret⟩ := valid
    have left := Pool.converted_source k hthis hret
    rw [models.emptied_iff left]
    have good := sound.models.good hthis
    cases k with
    | good v =>
      rcases good rfl with ⟨void, same⟩ | ⟨valued, v', same⟩
      · obtain rfl : v = none := by simpa using same
        simp [Content.kept, Content.status, Call.KeepsSource, hthis, void]
      · obtain rfl : v = some v' := by simpa using same
        simp [Content.kept, Content.status, Call.KeepsSource, hthis, valued]
    | bad e => simp [Content.kept, Content.status, Call.KeepsSource, hthis]
    | empty => simp [Content.kept, Content.status, Call.KeepsSource, hthis]

/-- A `result<void, void>` is emptied unless it was assigned to a result that was not empty. -/
theorem VoidResult.emptied_iff {op : Consumption} {source target after : Status}
    (returns : VoidResult.consume op source target = some after) :
    (VoidResult.toBool after = false ∧ VoidResult.not after = false) ↔
      ¬ (op = .assign ∧ target ≠ .empty) := by
  cases op with
  | moveResult =>
    obtain rfl : Status.empty = after := Option.some.inj returns
    simp [toBool, VoidResult.not]
  | assign =>
    obtain rfl : target = after := Option.some.inj returns
    cases target <;> simp [toBool, VoidResult.not]
  | move => cases returns
  | expect =>
    cases source <;> simp [consume, VoidResult.expect] at returns
    subst returns
    simp [toBool, VoidResult.not]
  | expectErr =>
    cases source <;> simp [consume, VoidResult.expectErr] at returns
    subst returns
    simp [toBool, VoidResult.not]

/-- A `nullable_value_result` is emptied unless it was assigned to a good result, or its value was
taken and moving from it did not leave a null. -/
theorem NullableResult.emptied_iff {T : Type} (N : Nullable T) {op : Consumption}
    {source target after : T} (returns : NullableResult.consume N op source target = some after) :
    NullableResult.toBool N after = false ↔
      ¬ ((op = .assign ∧ NullableResult.toBool N target = true) ∨
        ((op = .move ∨ op = .expect) ∧ N.isNull (N.movedFrom source) = false)) := by
  cases op with
  | moveResult =>
    obtain rfl : N.null = after := Option.some.inj returns
    simp [toBool, N.isNull_null]
  | assign =>
    obtain rfl : target = after := Option.some.inj returns
    simp
  | move =>
    obtain ⟨⟨v, left⟩, taken, rfl⟩ := Option.map_eq_some_iff.mp returns
    simp only [NullableResult.move, Option.ite_none_right_eq_some, Option.some.injEq,
      Prod.mk.injEq] at taken
    obtain ⟨-, -, rfl⟩ := taken
    simp [toBool]
  | expect =>
    obtain ⟨⟨v, left⟩, taken, rfl⟩ := Option.map_eq_some_iff.mp returns
    simp only [NullableResult.expect, Option.ite_none_right_eq_some, Option.some.injEq,
      Prod.mk.injEq] at taken
    obtain ⟨-, -, rfl⟩ := taken
    simp [toBool]
  | expectErr =>
    simp only [consume, NullableResult.expectErr, Option.ite_none_right_eq_some,
      Option.some.injEq] at returns
    obtain ⟨null, rfl⟩ := returns
    simpa using null

/-- A `result<T*, void>` is emptied unless it was assigned to a good result or its value was taken:
a pointer stays what it was when it is moved from. -/
theorem NullableResult.pointer_emptied_iff {op : Consumption} {source target after : Option Addr}
    (returns : NullableResult.consume pointer op source target = some after) :
    NullableResult.toBool pointer after = false ↔
      ¬ ((op = .assign ∧ NullableResult.toBool pointer target = true) ∨
        op = .move ∨ op = .expect) := by
  rw [NullableResult.emptied_iff pointer returns]
  have taken : op = .move ∨ op = .expect → pointer.isNull (pointer.movedFrom source) = false := by
    rintro (rfl | rfl)
    all_goals
      cases source with
      | none => cases returns
      | some p => rfl
  constructor
  · intro h kept
    exact h (kept.imp_right fun op => ⟨op, taken op⟩)
  · intro h kept
    exact h (kept.imp_right And.left)

/-- When a consumed result is empty. In the primary template it is not after the conversion of a bad
result, or of a good one without a value. In `result<void, void>` and `result<T*, void>` it is not
after an assignment to a result that had something to swap, and a pointer is not consumed when it is
taken. -/
theorem consumed_iff :
    (∀ (call : Call V E) (w w' : World V E) (source : Addr) (ret : Ret V E), Sound w →
      call.Valid w.view → call.Consumes source → call.exec w = (.ok ret, w') →
      (w'.Emptied source ↔ ¬ call.KeepsSource w.view)) ∧
    (∀ (op : Consumption) (source target after : Status),
      VoidResult.consume op source target = some after →
      ((VoidResult.toBool after = false ∧ VoidResult.not after = false) ↔
        ¬ (op = .assign ∧ target ≠ .empty))) ∧
    ∀ (op : Consumption) (source target after : Option Addr),
      NullableResult.consume pointer op source target = some after →
      (NullableResult.toBool pointer after = false ↔
        ¬ ((op = .assign ∧ NullableResult.toBool pointer target = true) ∨
          op = .move ∨ op = .expect)) :=
  ⟨fun _ _ _ _ _ sound valid consumes returns => Call.emptied_iff sound valid consumes returns,
    fun _ _ _ _ returns => VoidResult.emptied_iff returns,
    fun _ _ _ _ returns => NullableResult.pointer_emptied_iff returns⟩

section Example

def moveQuietly : Call Nat Nat := ⟨fragileResult, .moveResult 2 0, fun _ _ => false⟩

def convertBad : Call Nat Nat := ⟨fragileResult, .toVoidErr 1 2, fun _ _ => false⟩

theorem consumed_iff_moveQuietly :
    (moveQuietly.exec (makeGood.exec .init).2).2.Emptied 0 ∧
      (VoidResult.toBool .empty = false ∧ VoidResult.not .empty = false) ∧
      NullableResult.toBool pointer none = false := by
  have made : makeGood.Valid World.init.view := ⟨rfl, rfl⟩
  have sound : Sound (makeGood.exec .init).2 := (Call.sound sound_init made fun _ => rfl).2
  obtain ⟨primary, void, nullable⟩ := consumed_iff (V := Nat) (E := Nat)
  refine ⟨?_, ?_, ?_⟩
  · exact (primary moveQuietly _ _ 0 .nothing sound ⟨.inl rfl, rfl, _, rfl⟩ rfl rfl).mpr
      fun kept => kept
  · exact (void .moveResult .ok .error .empty rfl).mpr (by simp)
  · exact (nullable .moveResult (some 4) none none rfl).mpr (by simp)

/-- A converted bad result stays bad, a failure that was assigned over a success leaves the success
behind, and a pointer can be taken again. -/
theorem consumed_stays :
    (∃ w, convertBad.exec (makeBad.exec .init).2 = (.ok .nothing, w) ∧ ¬ w.Emptied 1) ∧
      (VoidResult.consume .assign .error .ok = some .ok ∧ VoidResult.toBool .ok = true) ∧
      (NullableResult.consume pointer .move (some 4) none = some (some 4) ∧
        NullableResult.toBool pointer (some 4) = true) := by
  refine ⟨⟨_, rfl, fun emptied => ?_⟩, ⟨rfl, rfl⟩, rfl, rfl⟩
  have bad := (emptied _ rfl).2
  cases bad

end Example

end LibCxxExt.Sys.Result
