import LibCxxExt.ProofKit.Interleaving
import LibCxxExt.ProofKit.Replacements

/-! `inplace_atomic_set` (`InplaceAtomicSet.h`). Calls of `exchange` and `exchange_weak` go over the
slots one compare-exchange at a time, and any number of threads interleave these steps. No step
loses or duplicates a value. -/

namespace LibCxxExt.Containers

open LibCxxExt.ProofKit

namespace InplaceAtomicSet

variable {T : Type} {n : Nat}

/-- `exchange_weak(source, target)` or `exchange(source, target)`. -/
structure Call (T : Type) where
  weak : Bool
  source : T
  target : T

/-- Where a thread stands: before the `i`-th round of the loop, or before the `return`. -/
inductive Pc (T : Type)
  | idle
  | round (call : Call T) (i : Nat)
  | leave (call : Call T) (exchanged : Bool)

inductive Event (T : Type)
  | call (call : Call T)
  | compare
  | exchange (call : Call T)
  | ret (exchanged : Bool)

/-- One atomic step of a call. The value that a failed compare-exchange puts into `expected` is
dropped with the variable. -/
inductive CallStep : (Fin n → T) → Pc T → Event T → (Fin n → T) → Pc T → Prop
  | call {data} (call : Call T) : CallStep data .idle (.call call) data (.round call 0)
  | exchanged {data call} (i : Fin n) : data i = call.source →
    CallStep data (.round call i) (.exchange call) (Function.update data i call.target)
      (.leave call true)
  | differs {data call} (i : Fin n) : data i ≠ call.source →
    CallStep data (.round call i) .compare data (.round call (i + 1))
  | spurious {data call} (i : Fin n) : call.weak = true →
    CallStep data (.round call i) .compare data (.round call (i + 1))
  | exhausted {data call i} : ¬ i < n →
    CallStep data (.round call i) .compare data (.leave call false)
  | ret {data call exchanged} :
    CallStep data (.leave call exchanged) (.ret exchanged) data .idle

/-- Threads that call on one set of `n` slots, all of which were initialised with `init`. -/
def program (Tid T : Type) (n : Nat) (init : T) : Program Tid (Fin n → T) (Pc T) (Event T) where
  shared := fun _ => init
  start := .idle
  step _ := CallStep

variable {Tid : Type}

/-- The successful steps, each as the value it replaced and the one that it stored. -/
def exchanges (es : List (Tid × Event T)) : List (T × T) :=
  es.filterMap fun
    | (_, .exchange call) => some (call.source, call.target)
    | _ => none

/-- What an event tells about the last call of its thread: its arguments, and its successful
steps. -/
def record : Option (Call T × List (Call T)) → Event T → Option (Call T × List (Call T))
  | _, .call call => some (call, [])
  | some (call, done), .exchange step => some (call, done ++ [step])
  | last, _ => last

def lastCall [DecidableEq Tid] (t : Tid) (es : List (Tid × Event T)) :
    Option (Call T × List (Call T)) :=
  (Program.eventsOf t es).foldl record none

/-! ### Steps -/

section Steps

variable {data data' : Fin n → T} {pc pc' : Pc T} {e : Event T} {t : Tid}

theorem CallStep.conserves (moved : CallStep data pc e data' pc') {m : Multiset T}
    {done : List (T × T)} (h : Replaces m done (values data)) :
    Replaces m (done ++ exchanges [(t, e)]) (values data') := by
  cases moved with
  | @exchanged call i same =>
    have replaced := h.update i call.target
    rwa [same] at replaced
  | _ => simpa [exchanges] using h

/-- A call at `pc` has made the successful steps that its thread's events tell of. -/
def Recorded (last : Option (Call T × List (Call T))) : Pc T → Prop
  | .idle => ∀ call done, last = some (call, done) → done = [] ∨ done = [call]
  | .round call _ => last = some (call, [])
  | .leave call exchanged => last = some (call, if exchanged then [call] else [])

theorem CallStep.recorded (moved : CallStep data pc e data' pc')
    {last : Option (Call T × List (Call T))} (recorded : Recorded last pc) :
    Recorded (record last e) pc' := by
  cases moved with
  | @ret call exchanged =>
    dsimp only [Recorded] at recorded ⊢
    cases exchanged <;> simp_all [record]
  | _ => simp_all [Recorded, record]

theorem Recorded.atMostOne {last : Option (Call T × List (Call T))} (recorded : Recorded last pc)
    {call : Call T} {done : List (Call T)} (h : last = some (call, done)) :
    done = [] ∨ done = [call] := by
  cases pc with
  | idle => exact recorded call done h
  | round => simp_all [Recorded]
  | leave _ exchanged => cases exchanged <;> simp_all [Recorded]

end Steps

/-! ### Runs -/

section Runs

variable [DecidableEq Tid] {init : T} {es : List (Tid × Event T)}
  {state : ThreadState Tid (Fin n → T) (Pc T)}

omit [DecidableEq Tid] in
theorem exchanges_snoc (es : List (Tid × Event T)) (e : Tid × Event T) :
    exchanges (es ++ [e]) = exchanges es ++ exchanges [e] :=
  List.filterMap_append

theorem replaces_of_run (run : (program Tid T n init).Run es state) :
    Replaces (Multiset.replicate n init) (exchanges es) (values state.shared) := by
  refine run.invariant (P := program Tid T n init)
    (I := fun es s => Replaces (Multiset.replicate n init) (exchanges es) (values s.shared))
    ?_ fun es s t e _ _ replaced moved => ?_
  · have fresh := values_const (ι := Fin n) init
    rw [Fintype.card_fin] at fresh
    rw [program, fresh]
    exact .none
  · rw [exchanges_snoc]
    exact CallStep.conserves moved replaced

/-- The values in the slots and those that were exchanged out are the initial values and those that
were exchanged in. -/
theorem values_balance (run : (program Tid T n init).Run es state) :
    values state.shared + ((exchanges es).map Prod.fst : Multiset T) =
      Multiset.replicate n init + ((exchanges es).map Prod.snd : Multiset T) :=
  (replaces_of_run run).balance

theorem recorded_of_run (run : (program Tid T n init).Run es state) :
    ∀ t, Recorded (lastCall t es) (state.pc t) := by
  refine run.own (P := program Tid T n init)
    (R := fun own pc => Recorded (own.foldl record none) pc) nofun ?_
  intro t data pc e data' pc' own moved recorded
  rw [List.foldl_append]
  exact CallStep.recorded moved recorded

/-- No slot is lost or duplicated: at every moment the slots hold the initial values with one
occurrence of `from` replaced by `to` for each successful step. A call makes at most one, and
returns whether it did. -/
theorem slots_conserved (run : (program Tid T n init).Run es state) :
    Replaces (Multiset.replicate n init) (exchanges es) (values state.shared) ∧
    (∀ t call done, lastCall t es = some (call, done) → done = [] ∨ done = [call]) ∧
    ∀ t exchanged next, (program Tid T n init).Step state (t, .ret exchanged) next →
      ∃ call, lastCall t es = some (call, if exchanged then [call] else []) := by
  have recorded := recorded_of_run run
  refine ⟨replaces_of_run run, fun t call done h => (recorded t).atMostOne h,
    fun t exchanged next moved => ?_⟩
  have last := recorded t
  obtain ⟨pc, _, _, at_, step, -⟩ := moved.inv
  rw [at_] at last
  cases step with
  | @ret call => exact ⟨call, last⟩

/-- One of two threads takes the first of two slots. -/
theorem slots_conserved_exchange : ∃ es state, (program Bool Nat 2 0).Run es state ∧
    exchanges es = [(0, 7)] ∧
    Replaces (Multiset.replicate 2 0) (exchanges es) (values state.shared) := by
  have fresh := Program.Run.start (P := program Bool Nat 2 0)
  have called := fresh.step (.thread (t := true) (.call ⟨false, 0, 7⟩))
  have exchanged := called.step (.thread (t := true) (.exchanged 0 rfl))
  exact ⟨_, _, exchanged, rfl, (slots_conserved exchanged).1⟩

end Runs

end InplaceAtomicSet

end LibCxxExt.Containers
