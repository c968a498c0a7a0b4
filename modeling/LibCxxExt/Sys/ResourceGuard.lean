import LibCxxExt.ProofKit.Tokens
import Mathlib.Data.List.Count
import Mathlib.Data.List.Nodup

/-! `resource_guard` (`ResourceGuard.h`), which releases a resource when it is destroyed. Guards are
moved by swapping their pointers, so that a guard that was assigned from may still own a resource.
The guards of `ordinary_mutex` are those whose resource is a mutex. -/

namespace LibCxxExt.Sys

open LibCxxExt.ProofKit

/-- `T* resource`, which is `none` for `nullptr`. -/
structure ResourceGuard (T : Type) where
  resource : Option T := none

namespace ResourceGuard

variable {T Guard : Type}

/-- The resource that the destructor calls `Release` with. -/
def destructor (guard : ResourceGuard T) : Option T := guard.resource

/-- The guards that exist, the resources that were given to constructors and those that `Release`
was called with, with the last one first. -/
structure World (Guard T : Type) where
  guards : Guard → Option (ResourceGuard T)
  guarded : List T
  released : List T

inductive Call (Guard T : Type)
  | default (this : Guard)
  | construct (this : Guard) (resource : T)
  | moveConstruct (this other : Guard)
  | moveAssign (this other : Guard)
  | swap (a b : Guard)
  | destroy (this : Guard)

section World

variable [DecidableEq Guard]

/-- A guard comes into being where there is none. -/
def World.create (w : World Guard T) (this : Guard) (guard : ResourceGuard T) :
    Option (World Guard T) :=
  if (w.guards this).isNone then
    some { w with guards := Function.update w.guards this (some guard) }
  else none

/-- `std::swap(a.resource, b.resource)`, by way of a temporary. -/
def World.swap (w : World Guard T) (a b : Guard) : Option (World Guard T) := do
  let tmp ← w.guards a
  let guards := Function.update w.guards a (some ⟨(← w.guards b).resource⟩)
  return { w with guards := Function.update guards b (some ⟨tmp.resource⟩) }

/-- What a call makes of the guards. It is `none` where a guard that the call needs does not exist,
or one that it creates does. -/
def World.perform (w : World Guard T) : Call Guard T → Option (World Guard T)
  | .default this => w.create this {}
  | .construct this resource => do
    let w ← w.create this ⟨some resource⟩
    return { w with guarded := resource :: w.guarded }
  | .moveConstruct this other => do
    let _ ← w.guards other
    (← w.create this {}).swap this other
  | .moveAssign this other => w.swap this other
  | .swap a b => w.swap a b
  | .destroy this => do
    let guard ← w.guards this
    return { w with
      guards := Function.update w.guards this none
      released := guard.destructor.toList ++ w.released }

/-- The sequences of calls. -/
inductive Run : World Guard T → Prop
  | start : Run ⟨fun _ => none, [], []⟩
  | step {w w' : World Guard T} {c : Call Guard T} : Run w → w.perform c = some w' → Run w'

end World

/-- The resource that a guard refers to. -/
def World.held (w : World Guard T) (g : Guard) : Option T := (w.guards g).bind (·.resource)

/-- Every resource that was guarded and is not released has one guard. -/
structure Balanced (w : World Guard T) : Prop where
  tokens : Tokens w.held fun r => r ∈ w.guarded ∧ r ∉ w.released
  once : w.released.Nodup
  known : ∀ r ∈ w.released, r ∈ w.guarded

theorem Balanced.start : Balanced (⟨fun _ => none, [], []⟩ : World Guard T) where
  tokens := .empty (by simp)
  once := List.nodup_nil
  known := by simp

variable [DecidableEq Guard] {w w' : World Guard T} {this other a b : Guard}

theorem create_inv {guard : ResourceGuard T} (done : w.create this guard = some w') :
    w.held this = none ∧ w'.held = Function.update w.held this guard.resource ∧
      w'.guarded = w.guarded ∧ w'.released = w.released := by
  rw [World.create] at done
  split_ifs at done with free
  obtain rfl := Option.some.inj done
  refine ⟨?_, ?_, rfl, rfl⟩
  · rw [World.held, Option.isNone_iff_eq_none.mp free, Option.bind_none]
  · exact Function.comp_update (fun guard : Option (ResourceGuard T) => guard.bind (·.resource))
      w.guards this (some guard)

theorem swap_inv (done : w.swap a b = some w') :
    w'.held = w.held ∘ Equiv.swap b a ∧ w'.guarded = w.guarded ∧ w'.released = w.released := by
  simp only [World.swap, Option.bind_eq_bind, Option.bind_eq_some_iff, Option.pure_def,
    Option.some.injEq] at done
  obtain ⟨first, ha, second, hb, rfl⟩ := done
  refine ⟨?_, rfl, rfl⟩
  have swapped : Function.update (Function.update w.guards a (some second)) b (some first) =
      w.guards ∘ Equiv.swap b a := by
    rw [Equiv.comp_swap_eq_update, ha, hb]
  show (fun g => (Function.update (Function.update w.guards a (some second)) b (some first) g).bind
    (·.resource)) = _
  rw [swapped]
  rfl

theorem destroy_inv (done : w.perform (.destroy this) = some w') :
    w'.held = Function.update w.held this none ∧ w'.guarded = w.guarded ∧
      w'.released = (w.held this).toList ++ w.released := by
  simp only [World.perform, Option.bind_eq_bind, Option.bind_eq_some_iff, Option.pure_def,
    Option.some.injEq] at done
  obtain ⟨guard, here, rfl⟩ := done
  refine ⟨?_, rfl, ?_⟩
  · exact Function.comp_update (fun guard : Option (ResourceGuard T) => guard.bind (·.resource))
      w.guards this none
  · rw [World.held, here]
    rfl

theorem Balanced.swap (balanced : Balanced w) (done : w.swap a b = some w') : Balanced w' := by
  obtain ⟨held, guarded, released⟩ := swap_inv done
  refine ⟨?_, released ▸ balanced.once, guarded ▸ released ▸ balanced.known⟩
  rw [held, guarded, released]
  exact balanced.tokens.swap

theorem Balanced.default (balanced : Balanced w) (done : w.create this {} = some w') :
    Balanced w' := by
  obtain ⟨free, held, guarded, released⟩ := create_inv done
  refine ⟨?_, released ▸ balanced.once, guarded ▸ released ▸ balanced.known⟩
  rw [held, guarded, released]
  exact balanced.tokens.clear free

theorem Balanced.construct {resource : T} (balanced : Balanced w)
    (done : w.create this ⟨some resource⟩ = some w') (fresh : resource ∉ w.guarded) :
    Balanced { w' with guarded := resource :: w'.guarded } := by
  obtain ⟨free, held, guarded, released⟩ := create_inv done
  have unreleased : resource ∉ w.released := fun old => fresh (balanced.known resource old)
  refine ⟨?_, released ▸ balanced.once, fun r old => ?_⟩
  · show Tokens w'.held fun r => r ∈ resource :: w'.guarded ∧ r ∉ w'.released
    rw [held, guarded, released]
    refine balanced.tokens.put free (fun owed => fresh owed.1) fun r => ?_
    rw [List.mem_cons]
    constructor
    · rintro ⟨rfl | old, kept⟩
      · exact .inl rfl
      · exact .inr ⟨old, kept⟩
    · rintro (rfl | ⟨old, kept⟩)
      · exact ⟨.inl rfl, unreleased⟩
      · exact ⟨.inr old, kept⟩
  · exact List.mem_cons_of_mem _ (guarded ▸ balanced.known r (released ▸ old))

/-- A guard that refers to a resource releases it, and another one does nothing. -/
theorem Balanced.destroy (balanced : Balanced w)
    (done : w.perform (.destroy this) = some w') : Balanced w' := by
  obtain ⟨held, guarded, released⟩ := destroy_inv done
  cases refers : w.held this with
  | none =>
    rw [refers, Option.toList_none, List.nil_append] at released
    refine ⟨?_, released ▸ balanced.once, guarded ▸ released ▸ balanced.known⟩
    rw [held, guarded, released]
    exact balanced.tokens.clear refers
  | some r =>
    rw [refers, Option.toList_some, List.singleton_append] at released
    have owed := (balanced.tokens.owed_iff r).mpr ⟨this, refers⟩
    rw [← guarded] at owed
    refine ⟨?_, ?_, fun x old => ?_⟩
    · rw [held]
      refine balanced.tokens.take refers fun x => ?_
      rw [guarded, released, List.mem_cons, not_or]
      exact and_left_comm
    · rw [released]
      exact List.nodup_cons.mpr ⟨owed.2, balanced.once⟩
    · rw [released] at old
      rcases List.mem_cons.mp old with rfl | old
      · exact owed.1
      · exact guarded ▸ balanced.known x old

theorem construct_inv {resource : T} (done : w.perform (.construct this resource) = some w') :
    ∃ created, w.create this ⟨some resource⟩ = some created ∧
      { created with guarded := resource :: created.guarded } = w' := by
  simpa only [World.perform, Option.bind_eq_bind, Option.bind_eq_some_iff, Option.pure_def,
    Option.some.injEq] using done

theorem moveConstruct_inv (done : w.perform (.moveConstruct this other) = some w') :
    ∃ created, w.create this {} = some created ∧ created.swap this other = some w' := by
  simp only [World.perform, Option.bind_eq_bind, Option.bind_eq_some_iff] at done
  obtain ⟨_, -, created⟩ := done
  exact created

/-- No call forgets a resource that was guarded. -/
theorem guarded_suffix {call : Call Guard T} (done : w.perform call = some w') :
    w.guarded <:+ w'.guarded := by
  cases call with
  | default this => exact (create_inv done).2.2.1 ▸ List.suffix_refl _
  | construct this resource =>
    obtain ⟨created, hcreated, rfl⟩ := construct_inv done
    exact (create_inv hcreated).2.2.1 ▸ List.suffix_cons _ _
  | moveConstruct this other =>
    obtain ⟨created, hcreated, swapped⟩ := moveConstruct_inv done
    exact ((swap_inv swapped).2.1.trans (create_inv hcreated).2.2.1) ▸ List.suffix_refl _
  | moveAssign this other => exact (swap_inv done).2.1 ▸ List.suffix_refl _
  | swap a b => exact (swap_inv done).2.1 ▸ List.suffix_refl _
  | destroy this => exact (destroy_inv done).2.1 ▸ List.suffix_refl _

/-- One call, which guards no resource again. -/
theorem Balanced.perform {call : Call Guard T} (balanced : Balanced w)
    (done : w.perform call = some w') (once : w'.guarded.Nodup) : Balanced w' := by
  cases call with
  | default this => exact balanced.default done
  | construct this resource =>
    obtain ⟨created, hcreated, rfl⟩ := construct_inv done
    have same := (create_inv hcreated).2.2.1
    exact balanced.construct hcreated (same ▸ (List.nodup_cons.mp once).1)
  | moveConstruct this other =>
    obtain ⟨created, hcreated, swapped⟩ := moveConstruct_inv done
    exact (balanced.default hcreated).swap swapped
  | moveAssign this other => exact balanced.swap done
  | swap a b => exact balanced.swap done
  | destroy this => exact balanced.destroy done

theorem balanced_of_run (run : Run w) (once : w.guarded.Nodup) : Balanced w := by
  induction run with
  | start => exact .start
  | step _ done ih => exact (ih (once.sublist (guarded_suffix done).sublist)).perform done once

/-- Where no resource is guarded twice, each one that is not released is referred to by exactly one
guard, none is released twice, and all are released once no guard is left. -/
theorem released_once [DecidableEq T] (run : Run w) (once : w.guarded.Nodup) :
    (∀ r ∈ w.guarded, r ∉ w.released → ∃! g, w.guards g = some ⟨some r⟩) ∧
    (∀ g r, w.guards g = some ⟨some r⟩ → r ∈ w.guarded ∧ r ∉ w.released) ∧
    (∀ r, w.released.count r ≤ 1) ∧
    ((∀ g, w.guards g = none) → ∀ r ∈ w.guarded, w.released.count r = 1) := by
  have balanced := balanced_of_run run once
  have refers (g : Guard) (r : T) : w.held g = some r ↔ w.guards g = some ⟨some r⟩ := by
    rw [World.held, Option.bind_eq_some_iff]
    constructor
    · rintro ⟨⟨_⟩, here, rfl⟩
      exact here
    · exact fun here => ⟨_, here, rfl⟩
  have owed (r : T) := balanced.tokens.owed_iff r
  simp only [refers] at owed
  refine ⟨fun r guarded kept => ?_, fun g r here => (owed r).mpr ⟨g, here⟩,
    List.nodup_iff_count_le_one.mp balanced.once, fun gone r guarded => ?_⟩
  · obtain ⟨g, here⟩ := (owed r).mp ⟨guarded, kept⟩
    exact ⟨g, here, fun h there => balanced.tokens.apart h g r ((refers h r).mpr there)
      ((refers g r).mpr here)⟩
  · refine List.count_eq_one_of_mem balanced.once ?_
    by_contra kept
    obtain ⟨g, here⟩ := (owed r).mp ⟨guarded, kept⟩
    simp [gone g] at here

/-- A guard is moved to another one, which is destroyed after it. -/
theorem released_once_moved : ∃ w : World Bool Nat, Run w ∧ w.guarded = [7] ∧
    w.released.count 7 = 1 := by
  have begun : Run (⟨fun _ => none, [], []⟩ : World Bool Nat) := .start
  have guarded := begun.step (c := .construct false 7) rfl
  have moved := guarded.step (c := .moveConstruct true false) rfl
  have source := moved.step (c := .destroy false) rfl
  have target := source.step (c := .destroy true) rfl
  refine ⟨_, target, rfl, (released_once target (by decide)).2.2.2 ?_ 7 (by decide)⟩
  intro g
  cases g <;> rfl

end ResourceGuard

end LibCxxExt.Sys
