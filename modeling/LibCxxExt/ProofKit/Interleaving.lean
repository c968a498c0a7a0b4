import Mathlib.Logic.Function.Basic
import Mathlib.Data.Finset.Card
import Mathlib.Data.List.Induction
import Mathlib.Algebra.BigOperators.Group.Finset.Piecewise
import Mathlib.Algebra.Order.BigOperators.Group.Finset

/-! Interleavings of threads that run one program over a shared state. A run is the list of the
atomic steps so far, each with the thread that took it, and an invariant may speak of both the run
and the state that it reaches. -/

namespace LibCxxExt.ProofKit

/-- A program in atomic steps: a thread at a program counter moves on, emits an event and changes
the shared state. -/
structure Program (Tid Shared Pc Event : Type*) where
  shared : Shared
  start : Pc
  step : Tid → Shared → Pc → Event → Shared → Pc → Prop

structure ThreadState (Tid Shared Pc : Type*) where
  shared : Shared
  pc : Tid → Pc

namespace Program

variable {Tid Shared Pc Event : Type*} [DecidableEq Tid] (P : Program Tid Shared Pc Event)

inductive Step : ThreadState Tid Shared Pc → Tid × Event → ThreadState Tid Shared Pc → Prop
  | thread {s : ThreadState Tid Shared Pc} {t : Tid} {e : Event} {shared : Shared} {pc : Pc} :
    P.step t s.shared (s.pc t) e shared pc →
      Step s (t, e) ⟨shared, Function.update s.pc t pc⟩

variable {P} in
/-- The program counter of the thread that moves is given a name, so that its step can be split. -/
theorem Step.inv {s s' : ThreadState Tid Shared Pc} {t : Tid} {e : Event}
    (moved : P.Step s (t, e) s') : ∃ p shared p', s.pc t = p ∧ P.step t s.shared p e shared p' ∧
      s' = ⟨shared, Function.update s.pc t p'⟩ := by
  cases moved with
  | thread moved => exact ⟨_, _, _, rfl, moved, rfl⟩

/-- The runs from the state in which no thread has moved. -/
inductive Run : List (Tid × Event) → ThreadState Tid Shared Pc → Prop
  | start : Run [] ⟨P.shared, fun _ => P.start⟩
  | step {es : List (Tid × Event)} {s s' : ThreadState Tid Shared Pc} {e : Tid × Event} :
    Run es s → P.Step s e s' → Run (es ++ [e]) s'

variable {P} {es : List (Tid × Event)} {s s' : ThreadState Tid Shared Pc}

/-- What holds at the start and is kept by every step of every thread holds in every run. -/
theorem Run.invariant {I : List (Tid × Event) → ThreadState Tid Shared Pc → Prop}
    (start : I [] ⟨P.shared, fun _ => P.start⟩)
    (step : ∀ es (s : ThreadState Tid Shared Pc) t e shared pc, I es s →
      P.step t s.shared (s.pc t) e shared pc →
      I (es ++ [(t, e)]) ⟨shared, Function.update s.pc t pc⟩)
    (run : P.Run es s) : I es s := by
  induction run with
  | start => exact start
  | step _ moved ih =>
    cases moved with
    | thread moved => exact step _ _ _ _ _ _ ih moved

/-- Every event of a run is a step from a state that the events before it lead to. -/
theorem Run.before {e : Tid × Event} {pre post : List (Tid × Event)}
    (run : P.Run (pre ++ e :: post) s) : ∃ s₀ s₁, P.Run pre s₀ ∧ P.Step s₀ e s₁ := by
  induction post using List.reverseRecOn generalizing s with
  | nil =>
    generalize h : pre ++ [e] = es at run
    cases run with
    | start => simp at h
    | step run moved =>
      obtain ⟨rfl, rfl⟩ := by simpa using List.append_inj' h rfl
      exact ⟨_, _, run, moved⟩
  | append_singleton post last ih =>
    generalize h : pre ++ e :: (post ++ [last]) = es at run
    cases run with
    | start => simp at h
    | step run _ =>
      rw [← List.cons_append, ← List.append_assoc] at h
      obtain ⟨rfl, -⟩ := List.append_inj' h rfl
      exact ih run

theorem Run.of_prefix {pre : List (Tid × Event)} (run : P.Run es s) (le : pre <+: es) :
    ∃ s', P.Run pre s' := by
  obtain ⟨post, rfl⟩ := le
  cases post with
  | nil => exact ⟨s, by simpa using run⟩
  | cons e post =>
    obtain ⟨s', _, before, -⟩ := run.before
    exact ⟨s', before⟩

/-- The steps from one state to another, each with the state that it reaches. -/
inductive Path (P : Program Tid Shared Pc Event) (s : ThreadState Tid Shared Pc) :
    List ((Tid × Event) × ThreadState Tid Shared Pc) → ThreadState Tid Shared Pc → Prop
  | refl : Path P s [] s
  | step {steps : List ((Tid × Event) × ThreadState Tid Shared Pc)} {e : Tid × Event}
    {s' s'' : ThreadState Tid Shared Pc} :
    Path P s steps s' → P.Step s' e s'' → Path P s (steps ++ [(e, s'')]) s''

/-- The states on a path. -/
def moments (s : ThreadState Tid Shared Pc)
    (steps : List ((Tid × Event) × ThreadState Tid Shared Pc)) :
    List (ThreadState Tid Shared Pc) :=
  s :: steps.map Prod.snd

omit [DecidableEq Tid] in
theorem mem_moments_snoc {m s s' : ThreadState Tid Shared Pc} {e : Tid × Event}
    {steps : List ((Tid × Event) × ThreadState Tid Shared Pc)} (mem : m ∈ moments s steps) :
    m ∈ moments s (steps ++ [(e, s')]) := by
  rw [moments, List.map_append, ← List.cons_append]
  exact List.mem_append_left _ mem

theorem Path.last_mem {steps : List ((Tid × Event) × ThreadState Tid Shared Pc)}
    (path : P.Path s steps s') : s' ∈ moments s steps := by
  cases path <;> simp [moments]

/-- Steps of one thread in a row. -/
inductive Alone (P : Program Tid Shared Pc Event) (t : Tid) :
    Shared → Pc → List Event → Shared → Pc → Prop
  | refl {s p} : Alone P t s p [] s p
  | step {s p e s' p' es s'' p''} : P.step t s p e s' p' → Alone P t s' p' es s'' p'' →
    Alone P t s p (e :: es) s'' p''

/-- A run goes on with what one of its threads can do on its own. -/
theorem Run.alone {t : Tid} {shared : Shared} {pc : Pc} {own : List Event} {shared' : Shared}
    {pc' : Pc} (alone : Alone P t shared pc own shared' pc') (run : P.Run es s)
    (from_ : s.shared = shared ∧ s.pc t = pc) : ∃ s', P.Run (es ++ own.map (Prod.mk t)) s' ∧
      s'.shared = shared' ∧ s'.pc t = pc' := by
  induction alone generalizing es s with
  | refl => exact ⟨s, by simpa using run, from_⟩
  | @step _ _ e s₁ p₁ _ _ _ moved _ ih =>
    obtain ⟨rfl, rfl⟩ := from_
    obtain ⟨s', run', reached⟩ := ih (run.step (.thread moved)) ⟨rfl, Function.update_self ..⟩
    exact ⟨s', by simpa using run', reached⟩

/-- The other threads stay where they are. -/
theorem Run.alone_update {t : Tid} {shared : Shared} {pc : Pc} {own : List Event}
    {shared' : Shared} {pc' : Pc} (run : P.Run es s) (alone : Alone P t shared pc own shared' pc')
    (from_ : s.shared = shared ∧ s.pc t = pc) :
    P.Run (es ++ own.map (Prod.mk t)) ⟨shared', Function.update s.pc t pc'⟩ := by
  induction alone generalizing es s with
  | refl =>
    obtain ⟨rfl, rfl⟩ := from_
    simpa using run
  | @step _ _ e s₁ p₁ _ _ _ moved _ ih =>
    obtain ⟨rfl, rfl⟩ := from_
    have rest := ih (run.step (.thread moved)) ⟨rfl, Function.update_self ..⟩
    simpa using rest

/-- The runs whose steps all meet a condition on the state before the step. -/
inductive RunWhere (P : Program Tid Shared Pc Event)
    (C : ThreadState Tid Shared Pc → Tid × Event → Prop) :
    List (Tid × Event) → ThreadState Tid Shared Pc → Prop
  | start : RunWhere P C [] ⟨P.shared, fun _ => P.start⟩
  | step {es : List (Tid × Event)} {s s' : ThreadState Tid Shared Pc} {e : Tid × Event} :
    RunWhere P C es s → C s e → P.Step s e s' → RunWhere P C (es ++ [e]) s'

/-- What holds at the start and is kept by every step that meets the condition. -/
theorem RunWhere.invariant {C : ThreadState Tid Shared Pc → Tid × Event → Prop}
    {I : ThreadState Tid Shared Pc → Prop} (start : I ⟨P.shared, fun _ => P.start⟩)
    (step : ∀ (s : ThreadState Tid Shared Pc) t e shared pc, I s → C s (t, e) →
      P.step t s.shared (s.pc t) e shared pc → I ⟨shared, Function.update s.pc t pc⟩)
    (run : RunWhere P C es s) : I s := by
  induction run with
  | start => exact start
  | step _ met moved ih =>
    cases moved with
    | thread moved => exact step _ _ _ _ _ ih met moved

def eventsOf (t : Tid) (es : List (Tid × Event)) : List Event :=
  (es.filter fun e => e.1 = t).map Prod.snd

theorem eventsOf_same (t : Tid) (e : Event) (es : List (Tid × Event)) :
    eventsOf t (es ++ [(t, e)]) = eventsOf t es ++ [e] := by
  simp [eventsOf]

theorem eventsOf_other {t u : Tid} (h : u ≠ t) (e : Event) (es : List (Tid × Event)) :
    eventsOf t (es ++ [(u, e)]) = eventsOf t es := by
  simp [eventsOf, h]

/-- What a thread's own events tell of it. -/
theorem Run.own {R : List Event → Pc → Prop} (start : R [] P.start)
    (step : ∀ t s p e s' p' own, P.step t s p e s' p' → R own p → R (own ++ [e]) p')
    (run : P.Run es s) (t : Tid) : R (eventsOf t es) (s.pc t) := by
  revert t
  refine run.invariant (I := fun es s => ∀ t, R (eventsOf t es) (s.pc t)) (fun _ => start) ?_
  intro es s t e shared pc own moved u
  show R (eventsOf u (es ++ [(t, e)])) (Function.update s.pc t pc u)
  by_cases same : u = t
  · subst same
    rw [eventsOf_same, Function.update_self]
    exact step _ _ _ _ _ _ _ moved (own u)
  · rw [eventsOf_other (Ne.symm same), Function.update_of_ne same]
    exact own u

section Balance

variable {f : Pc → Int} {opens closes : Event → Prop} [DecidablePred opens] [DecidablePred closes]

/-- How many more events of a run open something than close it. -/
def balance (opens closes : Event → Prop) [DecidablePred opens] [DecidablePred closes]
    (es : List (Tid × Event)) : Int :=
  (es.countP fun e => opens e.2) - (es.countP fun e => closes e.2)

omit [DecidableEq Tid] in
theorem balance_snoc (es : List (Tid × Event)) (t : Tid) (e : Event) :
    balance opens closes (es ++ [(t, e)]) =
      balance opens closes es + (if opens e then 1 else 0) - (if closes e then 1 else 0) := by
  simp only [balance, List.countP_append, List.countP_singleton, decide_eq_true_eq]
  split_ifs <;> simp <;> omega

/-- A thread at `p` has `f p` open. -/
structure Opens (P : Program Tid Shared Pc Event) (f : Pc → Int) (opens closes : Event → Prop)
    [DecidablePred opens] [DecidablePred closes] : Prop where
  start : f P.start = 0
  nonneg : ∀ p, 0 ≤ f p
  step : ∀ {t s p e s' p'}, P.step t s p e s' p' →
    f p' = f p + (if opens e then 1 else 0) - (if closes e then 1 else 0)

/-- What the events open and do not close is what the threads have open, all but finitely many of
which are at the start. -/
theorem Opens.balance_eq (h : Opens P f opens closes) (run : P.Run es s) :
    ∃ moved : Finset Tid, (∀ t ∉ moved, s.pc t = P.start) ∧
      ∑ t ∈ moved, f (s.pc t) = balance opens closes es := by
  refine run.invariant (I := fun es s => ∃ moved : Finset Tid, (∀ t ∉ moved, s.pc t = P.start) ∧
    ∑ t ∈ moved, f (s.pc t) = balance opens closes es) ⟨∅, fun _ _ => rfl, by simp [balance]⟩ ?_
  rintro es s t e shared p' ⟨moved, still, sum⟩ stepped
  have grown : ∑ u ∈ insert t moved, f (s.pc u) = balance opens closes es := by
    rw [← sum]
    refine (Finset.sum_subset (Finset.subset_insert t moved) fun u _ out => ?_).symm
    rw [still u out, h.start]
  refine ⟨insert t moved, fun u out => ?_, ?_⟩
  · rw [Finset.mem_insert, not_or] at out
    exact (Function.update_of_ne out.1 ..).trans (still u out.2)
  · have here := Finset.mem_insert_self t moved
    have before := Finset.add_sum_erase (insert t moved) (fun u => f (s.pc u)) here
    have after := Finset.sum_update_of_mem here (fun u => f (s.pc u)) (f p')
    have pcs : (fun u => f (Function.update s.pc t p' u)) =
        Function.update (fun u => f (s.pc u)) t (f p') := Function.comp_update f s.pc t p'
    have own := h.step stepped
    rw [← Finset.erase_eq] at after
    rw [pcs, after, balance_snoc]
    omega

theorem Opens.balance_nonneg (h : Opens P f opens closes) (run : P.Run es s) :
    0 ≤ balance opens closes es := by
  obtain ⟨moved, -, sum⟩ := h.balance_eq run
  rw [← sum]
  exact Finset.sum_nonneg fun u _ => h.nonneg _

end Balance

/-- Every step of `P` is a step of `Q` for what is seen of it, or leaves that unchanged. -/
structure Projection {Shared' Pc' Event' : Type*} (P : Program Tid Shared Pc Event)
    (Q : Program Tid Shared' Pc' Event') where
  shared : Shared → Shared'
  pc : Pc → Pc'
  event : Event → Option Event'
  start : shared P.shared = Q.shared ∧ pc P.start = Q.start
  step : ∀ {t s p e s' p'}, P.step t s p e s' p' → match event e with
    | some e' => Q.step t (shared s) (pc p) e' (shared s') (pc p')
    | none => shared s' = shared s ∧ pc p' = pc p

namespace Projection

variable {Shared' Pc' Event' : Type*} {Q : Program Tid Shared' Pc' Event'} (π : Projection P Q)

def state (s : ThreadState Tid Shared Pc) : ThreadState Tid Shared' Pc' :=
  ⟨π.shared s.shared, fun t => π.pc (s.pc t)⟩

def events (es : List (Tid × Event)) : List (Tid × Event') :=
  es.filterMap fun e => (π.event e.2).map (Prod.mk e.1)

omit [DecidableEq Tid] in
theorem mem_events {t : Tid} {e : Event'} :
    (t, e) ∈ π.events es ↔ ∃ e', (t, e') ∈ es ∧ π.event e' = some e := by
  simp only [events, List.mem_filterMap, Option.map_eq_some_iff, Prod.mk.injEq]
  constructor
  · rintro ⟨⟨u, e'⟩, mem, e'', seen, rfl, rfl⟩
    exact ⟨e', mem, seen⟩
  · rintro ⟨e', mem, seen⟩
    exact ⟨(t, e'), mem, e, seen, rfl, rfl⟩

theorem moved {t : Tid} {e : Event} (moved : P.Step s (t, e) s') : match π.event e with
    | some e' => Q.Step (π.state s) (t, e') (π.state s')
    | none => π.state s' = π.state s := by
  cases moved with
  | @thread _ _ shared pc moved =>
    have seen := π.step moved
    have pcs : (fun u => π.pc (Function.update s.pc t pc u)) =
        Function.update (fun u => π.pc (s.pc u)) t (π.pc pc) :=
      Function.comp_update π.pc s.pc t pc
    cases event : π.event e with
    | some e' =>
      rw [event] at seen
      simp only [state, pcs]
      exact .thread seen
    | none =>
      rw [event] at seen
      obtain ⟨sharedSame, pcSame⟩ := seen
      simp only [state, pcs, sharedSame, pcSame, Function.update_eq_self]

theorem run (run : P.Run es s) : Q.Run (π.events es) (π.state s) := by
  induction run with
  | start =>
    have same : π.state ⟨P.shared, fun _ => P.start⟩ = ⟨Q.shared, fun _ => Q.start⟩ := by
      simp only [state, π.start]
    rw [same]
    exact .start
  | @step es s s' e run moved ih =>
    have seen := π.moved moved
    cases event : π.event e.2 with
    | some e' =>
      rw [event] at seen
      simpa [events, event] using ih.step seen
    | none =>
      rw [event] at seen
      rw [show π.state s' = π.state s from seen]
      simpa [events, event] using ih

theorem eventsOf_events (t : Tid) (es : List (Tid × Event)) :
    eventsOf t (π.events es) = (eventsOf t es).filterMap π.event := by
  induction es with
  | nil => rfl
  | cons e es ih =>
    obtain ⟨u, e⟩ := e
    simp only [eventsOf, events] at ih
    by_cases same : u = t <;> cases event : π.event e <;> simp [eventsOf, events, same, event, ih]

end Projection

/-- Every step of `P` is what one thread of `Q` can do on its own. -/
structure Expansion {Shared' Pc' Event' : Type*} (P : Program Tid Shared Pc Event)
    (Q : Program Tid Shared' Pc' Event') where
  shared : Shared → Shared'
  pc : Pc → Pc'
  start : shared P.shared = Q.shared ∧ pc P.start = Q.start
  step : ∀ {es : List (Tid × Event)} {s : ThreadState Tid Shared Pc} {t e shared' p'},
    P.Run es s → P.step t s.shared (s.pc t) e shared' p' →
    ∃ own, Alone Q t (shared s.shared) (pc (s.pc t)) own (shared shared') (pc p')

namespace Expansion

variable {Shared' Pc' Event' : Type*} {Q : Program Tid Shared' Pc' Event'} (ε : Expansion P Q)

def state (s : ThreadState Tid Shared Pc) : ThreadState Tid Shared' Pc' :=
  ⟨ε.shared s.shared, fun t => ε.pc (s.pc t)⟩

/-- Every state that `P` reaches is one that `Q` reaches. -/
theorem run (run : P.Run es s) : ∃ es', Q.Run es' (ε.state s) := by
  induction run with
  | start =>
    refine ⟨[], ?_⟩
    have same : ε.state ⟨P.shared, fun _ => P.start⟩ = ⟨Q.shared, fun _ => Q.start⟩ := by
      simp only [state, ε.start]
    rw [same]
    exact .start
  | @step es s s' e run moved ih =>
    obtain ⟨es', reached⟩ := ih
    cases moved with
    | @thread t _ shared p' moved =>
      obtain ⟨own, alone⟩ := ε.step run moved
      have pcs : (fun u => ε.pc (Function.update s.pc t p' u)) =
          Function.update (fun u => ε.pc (s.pc u)) t (ε.pc p') :=
        Function.comp_update ε.pc s.pc t p'
      refine ⟨es' ++ own.map (Prod.mk t), ?_⟩
      rw [state, pcs]
      exact reached.alone_update alone ⟨rfl, rfl⟩

end Expansion

end Program

section Update

variable {Tid Pc : Type*}

def AtMostOne (inside : Pc → Prop) (pc : Tid → Pc) : Prop :=
  ∀ t u, inside (pc t) → inside (pc u) → t = u

theorem AtMostOne.mono {inside further : Pc → Prop} {pc : Tid → Pc} (one : AtMostOne inside pc)
    (sub : ∀ p, further p → inside p) : AtMostOne further pc :=
  fun u v hu hv => one u v (sub _ hu) (sub _ hv)

variable [DecidableEq Tid]

variable {inside : Pc → Prop} {pc : Tid → Pc} {t : Tid} {p : Pc}

theorem AtMostOne.update (one : AtMostOne inside pc) (stays : inside p → inside (pc t)) :
    AtMostOne inside (Function.update pc t p) := by
  intro u v hu hv
  have back (w : Tid) (hw : inside (Function.update pc t p w)) : inside (pc w) := by
    by_cases h : w = t
    · subst h
      exact stays (by rwa [Function.update_self] at hw)
    · rwa [Function.update_of_ne h] at hw
  exact one u v (back u hu) (back v hv)

theorem AtMostOne.enter (free : ∀ u, ¬ inside (pc u)) :
    AtMostOne inside (Function.update pc t p) := by
  have only (w : Tid) (hw : inside (Function.update pc t p w)) : w = t := by
    by_contra h
    exact free w (by rwa [Function.update_of_ne h] at hw)
  exact fun u v hu hv => (only u hu).trans (only v hv).symm

end Update

section Lock

variable {Tid Pc : Type*} {critical : Pc → Prop}

/-- The threads in their critical section are the owner of the lock. -/
def Owned (critical : Pc → Prop) (owner : Option Tid) (pc : Tid → Pc) : Prop :=
  ∀ t, critical (pc t) ↔ owner = some t

/-- What a step of `t` may do to a lock. -/
inductive Handover (critical : Pc → Prop) (t : Tid) : Option Tid → Pc → Option Tid → Pc → Prop
  | outside {owner p p'} : ¬ critical p → ¬ critical p' → Handover critical t owner p owner p'
  | enter {p p'} : ¬ critical p → critical p' → Handover critical t none p (some t) p'
  | inside {owner p p'} : critical p → critical p' → Handover critical t owner p owner p'
  | leave {owner p p'} : critical p → ¬ critical p' → Handover critical t owner p none p'

/-- A quantity that the owner of the lock contributes at its program counter. -/
def weight (f : Pc → Int) (owner : Option Tid) (pc : Tid → Pc) : Int :=
  owner.elim 0 fun t => f (pc t)

theorem weight_nonneg {f : Pc → Int} (nonneg : ∀ p, 0 ≤ f p) (owner : Option Tid)
    (pc : Tid → Pc) : 0 ≤ weight f owner pc := by
  cases owner <;> simp [weight, nonneg]

theorem Owned.le_weight {owner : Option Tid} {pc : Tid → Pc} (f : Pc → Int)
    (outside : ∀ p, ¬ critical p → f p = 0) (nonneg : ∀ p, 0 ≤ f p)
    (owned : Owned critical owner pc) (t : Tid) : f (pc t) ≤ weight f owner pc := by
  by_cases within : critical (pc t)
  · rw [(owned t).mp within]
    exact le_refl _
  · rw [outside _ within]
    exact weight_nonneg nonneg owner pc

variable [DecidableEq Tid] {owner owner' : Option Tid} {pc : Tid → Pc} {t : Tid} {p' : Pc}

theorem Owned.update (owned : Owned critical owner pc)
    (moved : Handover critical t owner (pc t) owner' p') :
    Owned critical owner' (Function.update pc t p') := by
  have held := owned t
  refine (Function.forall_update_iff pc fun u p => critical p ↔ owner' = some u).mpr
    ⟨?_, fun u other => ?_⟩
  · cases moved <;> simp_all
  · have theirs := owned u
    cases moved <;> simp_all [eq_comm]

theorem Owned.weight_update (f : Pc → Int) (outside : ∀ p, ¬ critical p → f p = 0)
    (owned : Owned critical owner pc) (moved : Handover critical t owner (pc t) owner' p') :
    weight f owner' (Function.update pc t p') = weight f owner pc + f p' - f (pc t) := by
  have held := owned t
  cases moved with
  | outside out out' =>
    have apart : owner ≠ some t := fun h => out (held.mpr h)
    rw [outside _ out, outside _ out']
    cases owner with
    | none => simp [weight]
    | some u =>
      have other : u ≠ t := fun h => apart (h ▸ rfl)
      simp [weight, Function.update_of_ne other]
  | enter out _ => simp [weight, outside _ out]
  | inside within _ =>
    rw [held.mp within]
    simp only [weight, Option.elim_some, Function.update_self]
    omega
  | leave within out' =>
    rw [held.mp within, outside _ out']
    simp [weight]

end Lock

/-- The threads in a condition variable: the blocked ones, and those that are woken but have not
returned from the wait. -/
structure WaitSet (Tid : Type*) where
  blocked : Finset Tid
  woken : Finset Tid
  disjoint : Disjoint blocked woken

namespace WaitSet

variable {Tid : Type*}

def empty : WaitSet Tid := ⟨∅, ∅, Finset.disjoint_empty_left _⟩

instance : Membership Tid (WaitSet Tid) := ⟨fun q t => t ∈ q.blocked ∨ t ∈ q.woken⟩

theorem mem_iff {q : WaitSet Tid} {t : Tid} : t ∈ q ↔ t ∈ q.blocked ∨ t ∈ q.woken := Iff.rfl

variable [DecidableEq Tid] (q : WaitSet Tid) {t u : Tid}

def block (t : Tid) : WaitSet Tid where
  blocked := insert t q.blocked
  woken := q.woken.erase t
  disjoint := by
    rw [Finset.disjoint_insert_left]
    exact ⟨Finset.notMem_erase _ _, q.disjoint.mono_right (Finset.erase_subset _ _)⟩

def wake (t : Tid) : WaitSet Tid where
  blocked := q.blocked.erase t
  woken := insert t q.woken
  disjoint := by
    rw [Finset.disjoint_insert_right]
    exact ⟨Finset.notMem_erase _ _, q.disjoint.mono_left (Finset.erase_subset _ _)⟩

def wakeAll : WaitSet Tid where
  blocked := ∅
  woken := q.blocked ∪ q.woken
  disjoint := Finset.disjoint_empty_left _

def leave (t : Tid) : WaitSet Tid where
  blocked := q.blocked
  woken := q.woken.erase t
  disjoint := q.disjoint.mono_right (Finset.erase_subset _ _)

theorem mem_block : u ∈ q.block t ↔ u = t ∨ u ∈ q := by
  by_cases h : u = t <;> simp [mem_iff, block, h]

theorem mem_wake (here : t ∈ q.blocked) : u ∈ q.wake t ↔ u ∈ q := by
  by_cases h : u = t <;> simp [mem_iff, wake, h, here]

theorem mem_leave (here : t ∈ q.woken) : u ∈ q.leave t ↔ u ≠ t ∧ u ∈ q := by
  have out : t ∉ q.blocked := fun h => Finset.disjoint_left.mp q.disjoint h here
  by_cases h : u = t <;> simp [mem_iff, leave, h, out]

theorem card_wake (here : t ∈ q.blocked) : (q.wake t).woken.card = q.woken.card + 1 :=
  Finset.card_insert_of_notMem (Finset.disjoint_left.mp q.disjoint here)

theorem card_leave : q.woken.card ≤ (q.leave t).woken.card + 1 := by
  have := Finset.pred_card_le_card_erase (a := t) (s := q.woken)
  simp only [leave]
  omega

end WaitSet

end LibCxxExt.ProofKit
