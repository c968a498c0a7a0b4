import LibCxxExt.ProofKit.Ledger
import LibCxxExt.Sys.Result

/-! What the functions of `sys::result` do to a pool of results, seen from outside: each result is
good, bad or empty. The specifications hold under any pattern of throwing constructions, and say
that the payloads stay accounted for when a construction throws half way. -/

namespace LibCxxExt.Sys.Result

open LibCxxExt.ProofKit

variable {V E : Type}

/-- What a result is to its users. A `void` has no value. -/
inductive Content (V E : Type) where
  | good (v : Option V)
  | bad (e : Option E)
  | empty
  deriving DecidableEq, Repr

/-- The results of a program as their users see them. -/
abbrev Pool (V E : Type) := Addr → Option (ResultType × Content V E)

/-- The content that status and storage stand for. -/
def Object.content (o : Object V E) : Content V E :=
  match o.status with
  | .ok => .good (match o.ty.T, o.storage with
    | .object _, some (.value _ v) => some v
    | .lvalueRef, some (.valuePtr v) => some v
    | _, _ => none)
  | .error => .bad (match o.ty.Err, o.storage with
    | .object _, some (.error _ e) => some e
    | .lvalueRef, some (.errorPtr e) => some e
    | _, _ => none)
  | .empty => .empty

def Object.payload (o : Object V E) : Option Nat :=
  match o.storage with
  | some (.value id _) => some id
  | some (.error id _) => some id
  | _ => none

@[simp] theorem Object.payload_status (o : Object V E) (status : Status) :
    Object.payload { o with status } = o.payload := rfl

/-- The storage holds what the status names, and nothing where it names nothing. -/
def Object.Agrees (o : Object V E) : Prop :=
  match o.status with
  | .ok => match o.ty.T with
    | .object _ => ∃ id v, o.storage = some (.value id v)
    | .lvalueRef => ∃ v, o.storage = some (.valuePtr v)
    | .void => o.payload = none
  | .error => match o.ty.Err with
    | .object _ => ∃ id e, o.storage = some (.error id e)
    | .lvalueRef => ∃ e, o.storage = some (.errorPtr e)
    | .void => o.payload = none
  | .empty => o.payload = none

def World.held (w : World V E) (a : Addr) : Option Nat := (w.objects a).bind Object.payload

def Object.entry (o : Object V E) : ResultType × Content V E := (o.ty, o.content)

def World.view (w : World V E) : Pool V E := fun a => (w.objects a).map Object.entry

/-- Every payload is accounted for, and status and storage of every result agree. -/
structure Sound (w : World V E) : Prop where
  ledger : Ledger w.held w.born w.died
  agrees : ∀ a o, w.objects a = some o → o.Agrees

/-- The world is sound, and the pool `c` to its users. -/
structure Models (c : Pool V E) (w : World V E) : Prop extends Sound w where
  view : w.view = c

theorem Sound.models {w : World V E} (h : Sound w) : Models w.view w := ⟨h, rfl⟩

theorem sound_init : Sound (World.init : World V E) where
  ledger := Ledger.empty
  agrees a o h := by simp [World.init] at h

/-- An exception came out of a construction, past a function that did not promise to throw none. -/
structure Threw (throws : Site → Nat → Bool) (promise : Bool) : Prop where
  unpromised : promise = false
  thrown : ∃ site n, throws site n = true

/-- The world is the pool `c` but for `a`, whose result is in the middle of an operation: it is `o`,
and its status and storage need not agree. -/
structure Focus (c : Pool V E) (a : Addr) (o : Object V E) (w : World V E) : Prop where
  ledger : Ledger w.held w.born w.died
  here : w.objects a = some o
  agrees : ∀ b p, b ≠ a → w.objects b = some p → p.Agrees
  view : ∀ b, b ≠ a → w.view b = c b

section

variable {c : Pool V E} {w : World V E} {a : Addr} {o : Object V E}

theorem Models.focus {ty : ResultType} {k : Content V E} (h : Models c w)
    (hc : c a = some (ty, k)) :
    ∃ o, (o.ty = ty ∧ o.content = k ∧ o.Agrees) ∧ Focus c a o w := by
  have seen : (w.objects a).map Object.entry = some (ty, k) := by
    rw [← hc, ← h.view]
    rfl
  obtain ⟨o, ho, entry⟩ := Option.map_eq_some_iff.mp seen
  obtain ⟨rfl, rfl⟩ := Prod.mk.inj entry
  exact ⟨o, ⟨rfl, rfl, h.agrees a o ho⟩, h.ledger, ho, fun b p _ => h.agrees b p,
    fun b _ => congrFun h.view b⟩

theorem Models.held_of_none (h : Models c w) (hc : c a = none) : w.held a = none := by
  have seen : (w.objects a).map Object.entry = none := by
    rw [← hc, ← h.view]
    rfl
  rw [World.held, Option.map_eq_none_iff.mp seen]
  rfl

theorem Focus.settle (h : Focus c a o w) (agrees : o.Agrees) :
    Models (Function.update c a (some o.entry)) w where
  ledger := h.ledger
  agrees b p hp := by
    rcases eq_or_ne b a with rfl | hne
    · obtain rfl : o = p := by simpa [h.here] using hp
      exact agrees
    · exact h.agrees b p hne hp
  view := by
    funext b
    rcases eq_or_ne b a with rfl | hne
    · simp [World.view, h.here]
    · rw [Function.update_of_ne hne, h.view b hne]

theorem Focus.restore (h : Focus c a o w) (agrees : o.Agrees) (hc : c a = some o.entry) :
    Models c w := by
  have settled := h.settle agrees
  rwa [← hc, Function.update_eq_self] at settled

theorem Focus.found (h : Focus c a o w) : object a w = (.ok o, w) := by
  simp only [object, Exec.bind_run, Exec.get, h.here, Exec.pure_run]

theorem Focus.held (h : Focus c a o w) : w.held a = o.payload := by
  simp [World.held, h.here]

theorem held_update (x : Option (Object V E)) (born attempts : Nat) (died : List Nat) :
    World.held ⟨Function.update w.objects a x, born, died, attempts⟩ =
      Function.update w.held a (x.bind Object.payload) := by
  funext b
  rcases eq_or_ne b a with rfl | hne
  · simp [World.held]
  · simp [World.held, Function.update_of_ne hne]

theorem Focus.replace {o' : Object V E} {born attempts : Nat} {died : List Nat} (h : Focus c a o w)
    (ledger : Ledger (Function.update w.held a o'.payload) born died) :
    Focus c a o' ⟨Function.update w.objects a (some o'), born, died, attempts⟩ where
  ledger := by
    rw [held_update]
    exact ledger
  here := Function.update_self ..
  agrees b p hne hp := h.agrees b p hne (by simpa [Function.update_of_ne hne] using hp)
  view b hne := by
    rw [← h.view b hne]
    simp [World.view, Function.update_of_ne hne]

theorem Focus.rewrite {o' : Object V E} {attempts : Nat} (h : Focus c a o w)
    (same : o'.payload = o.payload) :
    Focus c a o' ⟨Function.update w.objects a (some o'), w.born, w.died, attempts⟩ := by
  refine h.replace ?_
  rw [same, ← h.held, Function.update_eq_self]
  exact h.ledger

theorem Focus.attempted (h : Focus c a o w) (attempts : Nat) :
    Focus c a o { w with attempts } :=
  ⟨h.ledger, h.here, h.agrees, h.view⟩

end

section Primitives

variable {throws : Site → Nat → Bool} {abort : Prop} {c : Pool V E} {a : Addr} {o : Object V E}
  {X : World V E → Prop}

theorem object_bind {α : Type} {f : Object V E → Exec (World V E) α} {Q : α → World V E → Prop}
    (h : Triple abort (Focus c a o) (f o) Q X) :
    Triple abort (Focus c a o) (object a >>= f) Q X := by
  intro w hw
  rw [Exec.bind_run, hw.found]
  exact h w hw

theorem store_spec {o' : Object V E} (same : o'.payload = o.payload) :
    Triple abort (Focus c a o) (store a (some o')) (fun _ => Focus c a o') X :=
  fun _ hw => hw.rewrite same

theorem setStatus_spec (status : Status) :
    Triple abort (Focus c a o) (setStatus a status) (fun _ => Focus c a { o with status }) X :=
  object_bind (store_spec rfl)

theorem storePtr_spec {slot : Slot V E}
    (same : Object.payload { o with storage := some slot } = o.payload) :
    Triple abort (Focus c a o) (storePtr a slot)
      (fun _ => Focus c a { o with storage := some slot }) X :=
  object_bind (store_spec same)

theorem readValue_spec {id : Nat} {v : V} (h : o.storage = some (.value id v)) :
    Triple abort (Focus c a o) (readValue a) (fun ret w => ret = v ∧ Focus c a o w) X := by
  refine object_bind ?_
  simp only [h]
  exact Triple.pure fun _ hw => ⟨rfl, hw⟩

theorem readError_spec {id : Nat} {e : E} (h : o.storage = some (.error id e)) :
    Triple abort (Focus c a o) (readError a) (fun ret w => ret = e ∧ Focus c a o w) X := by
  refine object_bind ?_
  simp only [h]
  exact Triple.pure fun _ hw => ⟨rfl, hw⟩

theorem readValuePtr_spec {v : V} (h : o.storage = some (.valuePtr v)) :
    Triple abort (Focus c a o) (readValuePtr a) (fun ret w => ret = v ∧ Focus c a o w) X := by
  refine object_bind ?_
  simp only [h]
  exact Triple.pure fun _ hw => ⟨rfl, hw⟩

theorem readErrorPtr_spec {e : E} (h : o.storage = some (.errorPtr e)) :
    Triple abort (Focus c a o) (readErrorPtr a) (fun ret w => ret = e ∧ Focus c a o w) X := by
  refine object_bind ?_
  simp only [h]
  exact Triple.pure fun _ hw => ⟨rfl, hw⟩

theorem bury_spec {id : Nat} (h : o.payload = some id) :
    Triple abort (Focus c a o) (bury a id) (fun _ => Focus c a { o with storage := none }) X := by
  refine object_bind fun w hw => ?_
  have released := hw.ledger.release (hw.held.trans h)
  exact hw.replace released

theorem destroyValue_spec {id : Nat} {v : V} (h : o.storage = some (.value id v)) :
    Triple abort (Focus c a o) (destroyValue a)
      (fun _ => Focus c a { o with storage := none }) X := by
  refine object_bind ?_
  simp only [h]
  exact bury_spec (by simp [Object.payload, h])

theorem destroyError_spec {id : Nat} {e : E} (h : o.storage = some (.error id e)) :
    Triple abort (Focus c a o) (destroyError a)
      (fun _ => Focus c a { o with storage := none }) X := by
  refine object_bind ?_
  simp only [h]
  exact bury_spec (by simp [Object.payload, h])

theorem attempt_run (site : Site) (nothrow : Bool) (w : World V E) :
    attempt throws site nothrow w =
      (if !nothrow && throws site w.attempts then .threw else .ok (),
        { w with attempts := w.attempts + 1 }) := by
  cases h : !nothrow && throws site w.attempts <;>
    (simp only [attempt, Exec.bind_run, Exec.get, Exec.modify, h]; rfl)

theorem attempt_spec {site : Site} {nothrow : Bool}
    (hX : ∀ w, nothrow = false → (∃ n, throws site n = true) → Focus c a o w → X w) :
    Triple abort (Focus c a o) (attempt throws site nothrow) (fun _ => Focus c a o) X := by
  intro w hw
  have counted := hw.attempted (w.attempts + 1)
  rw [attempt_run]
  cases hthrow : !nothrow && throws site w.attempts with
  | false => exact counted
  | true =>
    obtain ⟨may, does⟩ := Bool.and_eq_true_iff.mp hthrow
    exact hX _ (by simpa using may) ⟨w.attempts, does⟩ counted

theorem constructAt_spec {site : Site} {nothrow : Bool} {slot : Nat → Slot V E}
    (vacant : o.payload = none)
    (fresh : ∀ id, Object.payload { o with storage := some (slot id) } = some id)
    (hX : ∀ w, nothrow = false → (∃ n, throws site n = true) → Focus c a o w → X w) :
    Triple abort (Focus c a o) (constructAt throws site nothrow a slot)
      (fun _ w => ∃ id, Focus c a { o with storage := some (slot id) } w) X := by
  refine Triple.bind (attempt_spec hX) fun _ w hw => ?_
  have acquired := hw.ledger.acquire (hw.held.trans vacant)
  rw [← fresh w.born] at acquired
  have stored : Focus c a _ ⟨_, w.born + 1, w.died, w.attempts⟩ := hw.replace acquired
  simp only [Exec.bind_run, Exec.get, storePtr, hw.found, store, Exec.modify]
  exact ⟨w.born, stored⟩

end Primitives

section Payloads

variable {throws : Site → Nat → Bool} {abort : Prop} {c : Pool V E} {a : Addr} {ty : ResultType}

theorem Models.triple {α : Type} {k : Content V E} {m : Exec (World V E) α}
    {Q : α → World V E → Prop} {X : World V E → Prop} (hc : c a = some (ty, k))
    (h : ∀ o : Object V E, o.ty = ty → o.content = k → o.Agrees →
      Triple abort (Focus c a o) m Q X) : Triple abort (Models c) m Q X := by
  intro w hw
  obtain ⟨o, ⟨hty, hk, agrees⟩, focus⟩ := hw.focus hc
  exact h o hty hk agrees w focus

theorem Object.ok_cases {o : Object V E} (ok : o.status = .ok) (agrees : o.Agrees) :
    (∃ p id v, o.ty.T = .object p ∧ o.storage = some (.value id v) ∧ o.content = .good (some v)) ∨
      (∃ v, o.ty.T = .lvalueRef ∧ o.storage = some (.valuePtr v) ∧ o.content = .good (some v)) ∨
      (o.ty.T = .void ∧ o.payload = none ∧ o.content = .good none) := by
  simp only [Object.Agrees, ok] at agrees
  cases hT : o.ty.T with
  | object p =>
    obtain ⟨id, v, stored⟩ := by simpa only [hT] using agrees
    exact .inl ⟨p, id, v, rfl, stored, by simp [Object.content, ok, hT, stored]⟩
  | lvalueRef =>
    obtain ⟨v, stored⟩ := by simpa only [hT] using agrees
    exact .inr (.inl ⟨v, rfl, stored, by simp [Object.content, ok, hT, stored]⟩)
  | void =>
    have vacant : o.payload = none := by simpa only [hT] using agrees
    exact .inr (.inr ⟨rfl, vacant, by simp [Object.content, ok, hT]⟩)

theorem Object.error_cases {o : Object V E} (error : o.status = .error) (agrees : o.Agrees) :
    (∃ p id e, o.ty.Err = .object p ∧ o.storage = some (.error id e) ∧ o.content = .bad (some e)) ∨
      (∃ e, o.ty.Err = .lvalueRef ∧ o.storage = some (.errorPtr e) ∧ o.content = .bad (some e)) ∨
      (o.ty.Err = .void ∧ o.payload = none ∧ o.content = .bad none) := by
  simp only [Object.Agrees, error] at agrees
  cases hE : o.ty.Err with
  | object p =>
    obtain ⟨id, e, stored⟩ := by simpa only [hE] using agrees
    exact .inl ⟨p, id, e, rfl, stored, by simp [Object.content, error, hE, stored]⟩
  | lvalueRef =>
    obtain ⟨e, stored⟩ := by simpa only [hE] using agrees
    exact .inr (.inl ⟨e, rfl, stored, by simp [Object.content, error, hE, stored]⟩)
  | void =>
    have vacant : o.payload = none := by simpa only [hE] using agrees
    exact .inr (.inr ⟨rfl, vacant, by simp [Object.content, error, hE]⟩)

def Content.status : Content V E → Status
  | .good _ => .ok
  | .bad _ => .error
  | .empty => .empty

theorem Object.content_status (o : Object V E) : o.content.status = o.status := by
  cases status : o.status <;> simp [Object.content, Content.status, status]

theorem Object.stored_of_good {o : Object V E} {v : V} (agrees : o.Agrees)
    (good : o.content = .good (some v)) :
    (∃ p id, o.ty.T = .object p ∧ o.storage = some (.value id v)) ∨
      (o.ty.T = .lvalueRef ∧ o.storage = some (.valuePtr v)) := by
  have ok : o.status = .ok := by
    rw [← Object.content_status, good]
    rfl
  rcases Object.ok_cases ok agrees with
    ⟨p, id, v', hT, stored, content⟩ | ⟨v', hT, stored, content⟩ | ⟨-, -, content⟩
  · obtain rfl : v' = v := by simpa [good] using content.symm
    exact .inl ⟨p, id, hT, stored⟩
  · obtain rfl : v' = v := by simpa [good] using content.symm
    exact .inr ⟨hT, stored⟩
  · simp [good] at content

theorem Object.stored_of_bad {o : Object V E} {e : E} (agrees : o.Agrees)
    (bad : o.content = .bad (some e)) :
    (∃ p id, o.ty.Err = .object p ∧ o.storage = some (.error id e)) ∨
      (o.ty.Err = .lvalueRef ∧ o.storage = some (.errorPtr e)) := by
  have error : o.status = .error := by
    rw [← Object.content_status, bad]
    rfl
  rcases Object.error_cases error agrees with
    ⟨p, id, e', hE, stored, content⟩ | ⟨e', hE, stored, content⟩ | ⟨-, -, content⟩
  · obtain rfl : e' = e := by simpa [bad] using content.symm
    exact .inl ⟨p, id, hE, stored⟩
  · obtain rfl : e' = e := by simpa [bad] using content.symm
    exact .inr ⟨hE, stored⟩
  · simp [bad] at content

theorem Object.vacant_of_empty {o : Object V E} (agrees : o.Agrees) (empty : o.content = .empty) :
    o.payload = none := by
  have status : o.status = .empty := by
    rw [← Object.content_status, empty]
    rfl
  simpa only [Object.Agrees, status] using agrees

/-- A function whose exceptions come from where it made no promise keeps its promise. -/
theorem Threw.noexceptIf {α : Type} {promise : Bool} {m : Exec (World V E) α}
    {P X : World V E → Prop} {Q : α → World V E → Prop}
    (h : Triple abort P m Q (fun w => Threw throws promise ∧ X w)) :
    Triple abort P (Exec.noexceptIf promise m) Q (fun w => Threw throws promise ∧ X w) := by
  refine Triple.noexceptIf h ?_
  intro promised w threw
  simp [threw.1.unpromised] at promised

theorem moveUnsafe_spec {v : V} (hc : c a = some (ty, .good (some v))) :
    Triple abort (Models c) (moveUnsafe throws ty a)
      (fun ret w => ret = v ∧ Models (Function.update c a (some (ty, .empty))) w)
      (fun w => Threw throws (ty.T.isLvalue || ty.T.nothrowMove) ∧
        (Models c w ∨ Models (Function.update c a (some (ty, .empty))) w)) := by
  apply Models.triple hc
  intro o hty good agrees
  subst hty
  refine Threw.noexceptIf ?_
  obtain ⟨p, id, hT, stored⟩ | ⟨hT, stored⟩ := Object.stored_of_good agrees good
  · simp only [hT]
    refine Triple.bind (readValue_spec stored) fun ret => Triple.of_and ?_
    rintro rfl
    refine Triple.bind (attempt_spec ?_) fun _ => ?_
    · intro w may does hw
      exact ⟨⟨may, _, does⟩, .inl (hw.restore agrees (by rw [hc, Object.entry, good]))⟩
    refine Triple.bind (setStatus_spec .empty) fun _ => ?_
    refine Triple.bind (destroyValue_spec stored) fun _ => ?_
    refine Triple.bind (attempt_spec ?_) fun _ => Triple.pure ?_
    · intro w may does hw
      exact ⟨⟨may, _, does⟩, .inr (hw.settle rfl)⟩
    · intro w hw
      exact ⟨rfl, hw.settle rfl⟩
  · simp only [hT]
    refine Triple.bind (readValuePtr_spec stored) fun ret => Triple.of_and ?_
    rintro rfl
    refine Triple.bind (setStatus_spec .empty) fun _ => Triple.pure ?_
    intro w hw
    exact ⟨rfl, hw.settle (by simp [Object.Agrees, Object.payload, stored])⟩

theorem errUnsafe_spec {e : E} (hc : c a = some (ty, .bad (some e))) :
    Triple abort (Models c) (errUnsafe throws ty a)
      (fun ret w => ret = e ∧ Models (Function.update c a (some (ty, .empty))) w)
      (fun w => Threw throws (ty.Err.isLvalue || ty.Err.nothrowMove) ∧
        (Models c w ∨ Models (Function.update c a (some (ty, .empty))) w)) := by
  apply Models.triple hc
  intro o hty bad agrees
  subst hty
  refine Threw.noexceptIf ?_
  obtain ⟨p, id, hE, stored⟩ | ⟨hE, stored⟩ := Object.stored_of_bad agrees bad
  · simp only [hE]
    refine Triple.bind (readError_spec stored) fun ret => Triple.of_and ?_
    rintro rfl
    refine Triple.bind (attempt_spec ?_) fun _ => ?_
    · intro w may does hw
      exact ⟨⟨may, _, does⟩, .inl (hw.restore agrees (by rw [hc, Object.entry, bad]))⟩
    refine Triple.bind (setStatus_spec .empty) fun _ => ?_
    refine Triple.bind (destroyError_spec stored) fun _ => ?_
    refine Triple.bind (attempt_spec ?_) fun _ => Triple.pure ?_
    · intro w may does hw
      exact ⟨⟨may, _, does⟩, .inr (hw.settle rfl)⟩
    · intro w hw
      exact ⟨rfl, hw.settle rfl⟩
  · simp only [hE]
    refine Triple.bind (readErrorPtr_spec stored) fun ret => Triple.of_and ?_
    rintro rfl
    refine Triple.bind (setStatus_spec .empty) fun _ => Triple.pure ?_
    intro w hw
    exact ⟨rfl, hw.settle (by simp [Object.Agrees, Object.payload, stored])⟩

theorem ctorOk_spec {v : V} {nothrow : Bool} (hc : c a = some (ty, .empty))
    (valued : ty.T.isVoid = false) :
    Triple abort (Models c) (ctorOk throws ty a v nothrow)
      (fun _ => Models (Function.update c a (some (ty, .good (some v)))))
      (fun w => Threw throws (ty.T.isLvalue || nothrow) ∧ Models c w) := by
  apply Models.triple hc
  intro o hty empty agrees
  subst hty
  refine Threw.noexceptIf ?_
  have vacant := Object.vacant_of_empty agrees empty
  cases hT : o.ty.T with
  | void => simp [hT, Kind.isVoid] at valued
  | lvalueRef =>
    refine Triple.bind (storePtr_spec (by rw [vacant]; rfl)) fun _ => ?_
    refine Triple.post (setStatus_spec .ok) ?_
    intro _ w hw
    have settled := hw.settle (by simp [Object.Agrees, hT])
    simpa [Object.entry, Object.content, hT] using settled
  | object p =>
    refine Triple.bind (constructAt_spec vacant (fun _ => rfl) ?_) fun _ =>
      Triple.of_exists fun id => ?_
    · intro w may does hw
      exact ⟨⟨by simp [Kind.isLvalue, may], _, does⟩,
        hw.restore agrees (by rw [hc, Object.entry, empty])⟩
    refine Triple.post (setStatus_spec .ok) ?_
    intro _ w hw
    have settled := hw.settle (by simp [Object.Agrees, hT])
    simpa [Object.entry, Object.content, hT] using settled

/-- `ctor_err` with one argument on an empty result. A throwing construction terminates the
program. -/
theorem ctorErr_spec {e : E} {nothrow : Bool} (hc : c a = some (ty, .empty))
    (valued : ty.Err.isVoid = false)
    (licence : nothrow = false → (∃ n, throws .putError n = true) → abort) :
    Triple abort (Models c) (ctorErr throws ty a e nothrow)
      (fun _ => Models (Function.update c a (some (ty, .bad (some e))))) (fun _ => False) := by
  apply Models.triple hc
  intro o hty empty agrees
  subst hty
  rw [ctorErr, Bool.or_true]
  refine Triple.noexcept (E := fun _ => abort) ?_ fun _ h => h
  have vacant := Object.vacant_of_empty agrees empty
  cases hE : o.ty.Err with
  | void => simp [hE, Kind.isVoid] at valued
  | lvalueRef =>
    refine Triple.bind (storePtr_spec (by rw [vacant]; rfl)) fun _ => ?_
    refine Triple.post (setStatus_spec .error) ?_
    intro _ w hw
    have settled := hw.settle (by simp [Object.Agrees, hE])
    simpa [Object.entry, Object.content, hE] using settled
  | object p =>
    refine Triple.bind (constructAt_spec vacant (fun _ => rfl) ?_) fun _ =>
      Triple.of_exists fun id => ?_
    · intro w may does _
      exact licence may does
    refine Triple.post (setStatus_spec .error) ?_
    intro _ w hw
    have settled := hw.settle (by simp [Object.Agrees, hE])
    simpa [Object.entry, Object.content, hE] using settled

/-- `ctor_err` with any other number of arguments on an empty result. -/
theorem ctorErrInplace_spec {e : E} {nothrow : Bool} {p : Payload} (hc : c a = some (ty, .empty))
    (hE : ty.Err = .object p) :
    Triple abort (Models c) (ctorErrInplace throws ty a e nothrow)
      (fun _ => Models (Function.update c a (some (ty, .bad (some e)))))
      (fun w => Threw throws nothrow ∧ Models c w) := by
  apply Models.triple hc
  intro o hty empty agrees
  subst hty
  refine Threw.noexceptIf ?_
  have vacant := Object.vacant_of_empty agrees empty
  simp only [hE]
  refine Triple.bind (constructAt_spec vacant (fun _ => rfl) ?_) fun _ =>
    Triple.of_exists fun id => ?_
  · intro w may does hw
    exact ⟨⟨may, _, does⟩, hw.restore agrees (by rw [hc, Object.entry, empty])⟩
  refine Triple.post (setStatus_spec .error) ?_
  intro _ w hw
  have settled := hw.settle (by simp [Object.Agrees, hE])
  simpa [Object.entry, Object.content, hE] using settled

end Payloads

end LibCxxExt.Sys.Result
