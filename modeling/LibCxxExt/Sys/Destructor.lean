import LibCxxExt.ProofKit.Ledger
import Mathlib.Data.List.Count

/-! `optional_destructor` (`Destructor.h`), which calls a function when it is destroyed unless its
flag says otherwise. The flag moves along with the function. What a move leaves behind in a function
is any value, so that a function that was moved from could still run a cleanup. -/

namespace LibCxxExt.Sys

open LibCxxExt.ProofKit

structure OptionalDestructor (Func : Type) where
  func : Func
  execute : Bool := true

namespace OptionalDestructor

section Members

variable {Func : Type}

/-- What the destructor calls. -/
def destructor (d : OptionalDestructor Func) : Option Func :=
  if d.execute then some d.func else none

def clear (d : OptionalDestructor Func) : OptionalDestructor Func := { d with execute := false }

/-- The members that the move constructor and the move assignment give to `*this`, and `other` after
that. -/
def move (other : OptionalDestructor Func) (left : Func) :
    OptionalDestructor Func × OptionalDestructor Func :=
  (⟨other.func, other.execute⟩, { other with func := left, execute := false })

end Members

/-- The objects that exist, the number of constructed cleanups and those that were executed, with
the last one first. A cleanup is told apart from the others by the number of those before it. -/
structure World (Obj : Type) where
  objects : Obj → Option (OptionalDestructor Nat)
  constructed : Nat
  executed : List Nat

/-- A move names what it leaves behind in the function. -/
inductive Call (Obj : Type)
  | construct (this : Obj)
  | moveConstruct (this other : Obj) (left : Nat)
  | moveAssign (this other : Obj) (left : Nat)
  | clear (this : Obj)
  | destroy (this : Obj)

variable {Obj : Type}

/-- The cleanup that an object holds: it would be executed at the end of its lifetime. -/
def World.held (w : World Obj) (o : Obj) : Option Nat := (w.objects o).bind destructor

section World

variable [DecidableEq Obj]

/-- Both objects after a move from `other` to `this`. -/
def World.move (w : World Obj) (this other : Obj) (left : Nat) : Option (World Obj) := do
  let (object, rest) := (← w.objects other).move left
  let objects := Function.update w.objects this (some object)
  return { w with objects := Function.update objects other (some rest) }

/-- What a call makes of the objects. It is `none` where an object that the call needs does not
exist, or one that it creates does. -/
def World.perform (w : World Obj) : Call Obj → Option (World Obj)
  | .construct this =>
    if (w.objects this).isNone then
      some { w with
        objects := Function.update w.objects this (some { func := w.constructed })
        constructed := w.constructed + 1 }
    else none
  | .moveConstruct this other left =>
    if (w.objects this).isNone then w.move this other left else none
  | .moveAssign this other left => do
    let _ ← w.objects this
    if this = other then return w else w.move this other left
  | .clear this => do
    let d ← w.objects this
    return { w with objects := Function.update w.objects this (some d.clear) }
  | .destroy this => do
    let d ← w.objects this
    return { w with
      objects := Function.update w.objects this none
      executed := d.destructor.toList ++ w.executed }

/-- The cleanup whose holder the call clears or overwrites by another object. -/
def Call.drops (w : World Obj) : Call Obj → Option Nat
  | .clear this => w.held this
  | .moveAssign this other _ => if this = other then none else w.held this
  | _ => none

/-- The sequences of calls, with the cleanups that they dropped. -/
inductive Run : World Obj → List Nat → Prop
  | start : Run ⟨fun _ => none, 0, []⟩ []
  | step {w w' : World Obj} {c : Call Obj} {dropped : List Nat} :
    Run w dropped → w.perform c = some w' → Run w' ((c.drops w).toList ++ dropped)

end World

/-- The call moves from `o` to another object. -/
def Call.MovesFrom (o : Obj) : Call Obj → Prop
  | .moveConstruct _ other _ => other = o
  | .moveAssign this other _ => other = o ∧ this ≠ o
  | _ => False

/-- The call constructs `o` or assigns another object to it. -/
def Call.Fills (o : Obj) : Call Obj → Prop
  | .construct this | .moveConstruct this _ _ => this = o
  | .moveAssign this other _ => this = o ∧ other ≠ o
  | _ => False

/-- The object `o` was moved from and has not been filled since. -/
inductive MovedFrom [DecidableEq Obj] (o : Obj) : World Obj → Prop
  | moved {w w' : World Obj} {c : Call Obj} :
    w.perform c = some w' → c.MovesFrom o → MovedFrom o w'
  | later {w w' : World Obj} {c : Call Obj} :
    MovedFrom o w → w.perform c = some w' → ¬ c.Fills o → MovedFrom o w'

variable [DecidableEq Obj] {w w' : World Obj} {this other o : Obj} {left : Nat} {dropped : List Nat}

theorem held_update (objects : Obj → Option (OptionalDestructor Nat)) (o : Obj)
    (object : Option (OptionalDestructor Nat)) :
    (fun p => (Function.update objects o object p).bind destructor) =
      Function.update (fun p => (objects p).bind destructor) o (object.bind destructor) :=
  Function.comp_update (fun object : Option (OptionalDestructor Nat) => object.bind destructor)
    objects o object

/-- The cleanup of `other` goes to `this`, which loses its own. -/
theorem move_inv (apart : this ≠ other) (done : w.move this other left = some w') :
    w'.held = Function.update w.held this none ∘ Equiv.swap other this ∧
      w'.constructed = w.constructed ∧ w'.executed = w.executed := by
  simp only [World.move, Option.bind_eq_bind, Option.bind_eq_some_iff, Option.pure_def,
    Option.some.injEq] at done
  obtain ⟨d, here, rfl⟩ := done
  have holds : w.held other = d.destructor := by rw [World.held, here, Option.bind_some]
  refine ⟨?_, rfl, rfl⟩
  rw [Equiv.comp_swap_eq_update, Function.update_self, Function.update_of_ne apart.symm,
    Function.update_idem, holds]
  exact (held_update _ other _).trans
    (congrArg (fun held => Function.update held other none) (held_update w.objects this _))

theorem construct_inv (done : w.perform (.construct this) = some w') :
    w.held this = none ∧ w'.held = Function.update w.held this (some w.constructed) ∧
      w'.constructed = w.constructed + 1 ∧ w'.executed = w.executed := by
  rw [World.perform] at done
  split_ifs at done with free
  obtain rfl := Option.some.inj done
  refine ⟨?_, held_update w.objects this _, rfl, rfl⟩
  rw [World.held, Option.isNone_iff_eq_none.mp free, Option.bind_none]

theorem moveConstruct_inv (done : w.perform (.moveConstruct this other left) = some w') :
    this ≠ other ∧ w.held this = none ∧ w.move this other left = some w' := by
  rw [World.perform] at done
  split_ifs at done with free
  have absent := Option.isNone_iff_eq_none.mp free
  refine ⟨?_, by rw [World.held, absent, Option.bind_none], done⟩
  rintro rfl
  simp [World.move, absent] at done

theorem moveAssign_inv (done : w.perform (.moveAssign this other left) = some w') :
    this = other ∧ w' = w ∨ this ≠ other ∧ w.move this other left = some w' := by
  simp only [World.perform, Option.bind_eq_bind, Option.bind_eq_some_iff] at done
  obtain ⟨_, -, moved⟩ := done
  split_ifs at moved with same
  · exact .inl ⟨same, (Option.some.inj moved).symm⟩
  · exact .inr ⟨same, moved⟩

theorem clear_inv (done : w.perform (.clear this) = some w') :
    w'.held = Function.update w.held this none ∧ w'.constructed = w.constructed ∧
      w'.executed = w.executed := by
  simp only [World.perform, Option.bind_eq_bind, Option.bind_eq_some_iff, Option.pure_def,
    Option.some.injEq] at done
  obtain ⟨d, -, rfl⟩ := done
  exact ⟨held_update w.objects this _, rfl, rfl⟩

theorem destroy_inv (done : w.perform (.destroy this) = some w') :
    w'.held = Function.update w.held this none ∧ w'.constructed = w.constructed ∧
      w'.executed = (w.held this).toList ++ w.executed := by
  simp only [World.perform, Option.bind_eq_bind, Option.bind_eq_some_iff, Option.pure_def,
    Option.some.injEq] at done
  obtain ⟨d, here, rfl⟩ := done
  refine ⟨held_update w.objects this _, rfl, ?_⟩
  rw [World.held, here, Option.bind_some]

/-- Every constructed cleanup is held by one object, was executed or was dropped. -/
abbrev Accounted (w : World Obj) (dropped : List Nat) : Prop :=
  Ledger w.held w.constructed (w.executed ++ dropped)

theorem drop_perm (lost executed dropped : List Nat) :
    (lost ++ (executed ++ dropped)).Perm (executed ++ (lost ++ dropped)) := by
  rw [← List.append_assoc, ← List.append_assoc]
  exact List.perm_append_comm.append_right dropped

theorem Accounted.perform {c : Call Obj} (accounted : Accounted w dropped)
    (done : w.perform c = some w') : Accounted w' ((c.drops w).toList ++ dropped) := by
  cases c with
  | construct this =>
    obtain ⟨free, held, constructed, executed⟩ := construct_inv done
    rw [Accounted, held, constructed, executed]
    exact accounted.acquire free
  | moveConstruct this other left =>
    obtain ⟨apart, free, moved⟩ := moveConstruct_inv done
    obtain ⟨held, constructed, executed⟩ := move_inv apart moved
    rw [Accounted, held, constructed, executed]
    exact (accounted.clear free).relocate _
  | moveAssign this other left =>
    rcases moveAssign_inv done with ⟨rfl, rfl⟩ | ⟨apart, moved⟩
    · rw [Call.drops, if_pos rfl]
      exact accounted
    · obtain ⟨held, constructed, executed⟩ := move_inv apart moved
      rw [Accounted, held, constructed, executed, Call.drops, if_neg apart]
      exact ((accounted.vacate this).relocate _).perm (drop_perm _ _ _)
  | clear this =>
    obtain ⟨held, constructed, executed⟩ := clear_inv done
    rw [Accounted, held, constructed, executed]
    exact (accounted.vacate this).perm (drop_perm _ _ _)
  | destroy this =>
    obtain ⟨held, constructed, executed⟩ := destroy_inv done
    rw [Accounted, held, constructed, executed, List.append_assoc]
    exact accounted.vacate this

theorem accounted_of_run (run : Run w dropped) : Accounted w dropped := by
  induction run with
  | start => exact .empty
  | step _ done ih => exact ih.perform done

/-- A move fills no object but its target. -/
theorem held_none_of_move (apart : this ≠ other) (done : w.move this other left = some w')
    (notTarget : this ≠ o) (empty : other ≠ o → w.held o = none) : w'.held o = none := by
  rw [(move_inv apart done).1, Function.comp_apply]
  by_cases source : other = o
  · rw [source, Equiv.swap_apply_left, Function.update_self]
  · rw [Equiv.swap_apply_of_ne_of_ne (Ne.symm source) notTarget.symm,
      Function.update_of_ne notTarget.symm]
    exact empty source

theorem held_none_of_movesFrom {c : Call Obj} (done : w.perform c = some w')
    (moves : c.MovesFrom o) : w'.held o = none := by
  cases c with
  | moveConstruct this other left =>
    obtain ⟨apart, -, moved⟩ := moveConstruct_inv done
    obtain rfl : other = o := moves
    exact held_none_of_move apart moved apart fun other => absurd rfl other
  | moveAssign this other left =>
    obtain ⟨rfl, apart⟩ := moves
    rcases moveAssign_inv done with ⟨same, -⟩ | ⟨-, moved⟩
    · exact absurd same apart
    · exact held_none_of_move apart moved apart fun other => absurd rfl other
  | construct this | clear this | destroy this => exact moves.elim

theorem held_none_of_not_fills {c : Call Obj} (empty : w.held o = none)
    (done : w.perform c = some w') (unfilled : ¬ c.Fills o) : w'.held o = none := by
  have emptied (p : Obj) : Function.update w.held p none o = none := by
    rw [Function.update_apply, empty, ite_self]
  cases c with
  | construct this =>
    rw [(construct_inv done).2.1, Function.update_of_ne (Ne.symm unfilled), empty]
  | moveConstruct this other left =>
    obtain ⟨apart, -, moved⟩ := moveConstruct_inv done
    exact held_none_of_move apart moved unfilled fun _ => empty
  | moveAssign this other left =>
    rcases moveAssign_inv done with ⟨rfl, rfl⟩ | ⟨apart, moved⟩
    · exact empty
    · have notTarget : this ≠ o := fun target => unfilled ⟨target, fun source =>
        apart (target.trans source.symm)⟩
      exact held_none_of_move apart moved notTarget fun _ => empty
  | clear this => rw [(clear_inv done).1, emptied]
  | destroy this => rw [(destroy_inv done).1, emptied]

theorem MovedFrom.held_none (moved : MovedFrom o w) : w.held o = none := by
  induction moved with
  | moved done moves => exact held_none_of_movesFrom done moves
  | later _ done unfilled ih => exact held_none_of_not_fills ih done unfilled

/-- No cleanup is executed twice. One that is neither executed nor dropped has one holder, so that
once no object is left the cleanups that were not dropped were executed. An object that was moved
from executes nothing. -/
theorem executed_once (run : Run w dropped) :
    (∀ i, w.executed.count i ≤ 1) ∧
    (∀ i ∈ w.executed, i < w.constructed ∧ i ∉ dropped) ∧
    (∀ i < w.constructed, i ∉ w.executed → i ∉ dropped → ∃! o, w.held o = some i) ∧
    ((∀ o, w.objects o = none) →
      ∀ i < w.constructed, w.executed.count i = if i ∈ dropped then 0 else 1) ∧
    (∀ o, MovedFrom o w → ∀ w', w.perform (.destroy o) = some w' → w'.executed = w.executed) := by
  have accounted := accounted_of_run run
  obtain ⟨executedOnce, -, apart⟩ := List.nodup_append.mp accounted.once
  have notDropped {i : Nat} (executed : i ∈ w.executed) : i ∉ dropped := fun lost =>
    apart i executed i lost rfl
  have settled {i : Nat} (old : i < w.constructed) (kept : i ∉ w.executed)
      (undropped : i ∉ dropped) : ∃ o, w.held o = some i :=
    (accounted.settled i old).resolve_left fun died =>
      (List.mem_append.mp died).elim kept undropped
  refine ⟨List.nodup_iff_count_le_one.mp executedOnce, fun i executed =>
    ⟨accounted.past i (List.mem_append_left _ executed), notDropped executed⟩,
    fun i old kept undropped => ?_, fun gone i old => ?_, fun o moved w' done => ?_⟩
  · obtain ⟨o, holds⟩ := settled old kept undropped
    exact ⟨o, holds, fun p there => accounted.apart p o i there holds⟩
  · split_ifs with lost
    · exact List.count_eq_zero.mpr fun executed => notDropped executed lost
    · refine List.count_eq_one_of_mem executedOnce ?_
      by_contra kept
      obtain ⟨o, holds⟩ := settled old kept lost
      simp [World.held, gone o] at holds
  · rw [(destroy_inv done).2.2, moved.held_none]
    rfl

/-- The first of two cleanups is overwritten by the second, whose former holder is destroyed. -/
theorem executed_once_assigned : ∃ w : World Bool, Run w [0] ∧ w.constructed = 2 ∧
    w.executed.count 1 = 1 := by
  have begun : Run (⟨fun _ => none, 0, []⟩ : World Bool) [] := .start
  have first := begun.step (c := .construct false) rfl
  have second := first.step (c := .construct true) rfl
  have assigned := second.step (c := .moveAssign false true 1) rfl
  have source := assigned.step (c := .destroy true) rfl
  have target := source.step (c := .destroy false) rfl
  refine ⟨_, target, rfl, (executed_once target).2.2.2.1 ?_ 1 (by decide)⟩
  intro o
  cases o <;> rfl

end OptionalDestructor

end LibCxxExt.Sys
