import LibCxxExt.Workflows.AllPush
import Mathlib.Data.Finite.Defs
import Mathlib.Data.Set.Finite.List
import Mathlib.Order.WellFounded
import Mathlib.Logic.Relation
import Mathlib.Data.Fintype.Order

/-! The order in which `all_push.py` runs the checks. The log of the loop tells which dependencies
were completed when a check was submitted. -/

namespace LibCxxExt.Workflows.AllPush

def Event.submitted : Event → Option String
  | .submit name => some name
  | .finish .. => none

variable {Check : Type}

/-- `skipped`. -/
def skipped (cfg : Config Check) (s : State) : List String :=
  cfg.keys.filter fun name => !s.completed.contains name && !s.failed.contains name

/-- The check `dep` is a dependency of `name`. -/
def DependsOn (cfg : Config Check) (name dep : String) : Prop :=
  ∃ deps, (name, deps) ∈ cfg.checksAndDeps ∧ dep ∈ deps

/-! ### The log -/

/-- The state is what its log tells of it, and every check in the log was submitted after the
success of its dependencies. -/
structure Logged (cfg : Config Check) (s : State) : Prop where
  completed : ∀ name, name ∈ s.completed ↔ .finish name true ∈ s.log
  failed : ∀ name, name ∈ s.failed ↔ .finish name false ∈ s.log
  submitted : (s.log.filterMap Event.submitted).Perm (s.completed ++ s.failed ++ s.pending)
  ordered : ∀ before name, before ++ [.submit name] <+: s.log →
    ∀ dep, DependsOn cfg name dep → .finish dep true ∈ before

section Log

variable {cfg : Config Check} {s s' : State} {item : String × List String} {name : String}

theorem Logged.start : Logged cfg {} where
  completed := by simp
  failed := by simp
  submitted := .refl _
  ordered := by simp

theorem Config.deps_eq (cfg : Config Check) (mem : item ∈ cfg.checksAndDeps) {dep : String}
    (depends : DependsOn cfg item.1 dep) : dep ∈ item.2 := by
  obtain ⟨deps, listed, here⟩ := depends
  have same := List.inj_on_of_nodup_map cfg.keys_nodup listed mem rfl
  rwa [← same]

theorem Logged.submit (logged : Logged cfg s) (mem : item ∈ cfg.checksAndDeps)
    (ready : isReady s item = true) : Logged cfg (submit s item.1) where
  completed other := by simpa [AllPush.submit] using logged.completed other
  failed other := by simpa [AllPush.submit] using logged.failed other
  submitted := by
    rw [AllPush.submit, List.filterMap_append, ← List.append_assoc]
    exact logged.submitted.append_right _
  ordered before other split dep depends := by
    rcases List.prefix_concat_iff.mp split with same | earlier
    · obtain ⟨rfl, last⟩ := List.append_inj' same rfl
      obtain rfl : other = item.1 := by simpa using last
      exact (logged.completed dep).mp ((isReady_iff.mp ready).2.1 dep (cfg.deps_eq mem depends))
    · exact logged.ordered before other earlier dep depends

theorem log_finish : (finish cfg s name).log = s.log ++ [.finish name (cfg.passes name)] := by
  unfold finish
  split <;> rfl

theorem Logged.finish (logged : Logged cfg s) (pending : name ∈ s.pending) :
    Logged cfg (finish cfg s name) where
  completed other := by
    rw [mem_completed_finish, logged.completed, log_finish, List.mem_append, List.mem_singleton,
      Event.finish.injEq, eq_comm (a := true)]
  failed other := by
    rw [mem_failed_finish, logged.failed, log_finish, List.mem_append, List.mem_singleton,
      Event.finish.injEq, eq_comm (a := false)]
  submitted := by
    have unsubmitted : (AllPush.finish cfg s name).log.filterMap Event.submitted =
        s.log.filterMap Event.submitted := by
      simp [log_finish, Event.submitted]
    rw [unsubmitted]
    exact logged.submitted.trans (finish_perm cfg pending).symm
  ordered before other split dep depends := by
    rw [log_finish] at split
    rcases List.prefix_concat_iff.mp split with same | earlier
    · simp at same
    · exact logged.ordered before other earlier dep depends

theorem submitReady_logged {items : List (String × List String)}
    (known : ∀ item ∈ items, item ∈ cfg.checksAndDeps) (logged : Logged cfg s)
    (submitted : submitReady cfg items s = .ok s' ∨ submitReady cfg items s = .error s') :
    Logged cfg s' := by
  induction items generalizing s with
  | nil =>
    obtain rfl : s = s' := by simpa [submitReady] using submitted
    exact logged
  | cons item rest ih =>
    obtain ⟨here, later⟩ := List.forall_mem_cons.mp known
    rw [submitReady] at submitted
    split at submitted
    · next new =>
      cases defined : cfg.checks item.1 with
      | none =>
        obtain rfl : s = s' := by simpa [defined] using submitted
        exact logged
      | some check =>
        have ready : isReady s item = true := by simp_all
        rw [defined] at submitted
        exact ih later (logged.submit here ready) submitted
    · exact ih later logged submitted

theorem mainLoop_logged {pick : State → Nat} {fuel : Nat} {v : Verdict} (logged : Logged cfg s)
    (ran : mainLoop cfg pick fuel s = some (v, s')) : Logged cfg s' := by
  induction fuel generalizing s with
  | zero => simp [mainLoop] at ran
  | succ fuel ih =>
    rw [mainLoop] at ran
    split at ran
    · have turn (s' : State) (ends : submitReady cfg cfg.checksAndDeps s = .ok s' ∨
          submitReady cfg cfg.checksAndDeps s = .error s') : Logged cfg s' :=
        submitReady_logged (fun _ h => h) logged ends
      cases submitted : submitReady cfg cfg.checksAndDeps s with
      | error stopped =>
        obtain ⟨-, rfl⟩ := by simpa [submitted] using ran
        exact turn stopped (.inr submitted)
      | ok waiting =>
        have turned := turn waiting (.inl submitted)
        rw [submitted] at ran
        by_cases idle : waiting.pending = []
        · obtain ⟨-, rfl⟩ := by simpa [idle] using ran
          exact turned
        · have inside : pick waiting % waiting.pending.length < waiting.pending.length :=
            Nat.mod_lt _ (List.length_pos_of_ne_nil idle)
          exact ih (turned.finish (List.getElem_mem inside))
            (by simpa [idle, List.getElem?_eq_getElem inside] using ran)
    · obtain ⟨-, rfl⟩ := by simpa using ran
      exact logged

end Log

/-! ### The schedule -/

section Main

open Relation (TransGen)

variable {cfg : Config Check} {s : State} {name : String}

/-- Every check that `name` depends on, directly or not, is in the checkset, succeeds and is on no
cycle. -/
def Clear (cfg : Config Check) (name : String) : Prop :=
  ∀ dep, TransGen (DependsOn cfg) name dep →
    dep ∈ cfg.keys ∧ cfg.passes dep = true ∧ ¬ TransGen (DependsOn cfg) dep dep

/-- Once nothing is ready, a check whose dependencies are completed has been run. -/
theorem Invariant.ran (inv : Invariant cfg s)
    (unready : ∀ item ∈ cfg.checksAndDeps, isReady s item = false) (mem : name ∈ cfg.keys)
    (completed : ∀ dep, DependsOn cfg name dep → dep ∈ s.completed) :
    name ∈ s.completed ∨ name ∈ s.failed := by
  obtain ⟨item, listed, rfl⟩ := List.mem_map.mp mem
  have deps : ∀ dep ∈ item.2, dep ∈ s.completed :=
    fun dep here => completed dep ⟨item.2, listed, here⟩
  by_contra open_
  obtain ⟨uncompleted, unfailed⟩ := not_or.mp open_
  have ready : isReady s item = true := by
    refine isReady_iff.mpr ⟨⟨uncompleted, unfailed⟩, deps, fun dep here failed => ?_⟩
    have passes := inv.completed dep (deps dep here)
    simp [inv.failed dep failed] at passes
  simp [unready item listed] at ready

/-- A clear check is run: what it depends on is completed, from the checks without dependencies
upwards. -/
theorem Clear.ran (clear : Clear cfg name) (inv : Invariant cfg s)
    (unready : ∀ item ∈ cfg.checksAndDeps, isReady s item = false) (mem : name ∈ cfg.keys) :
    name ∈ s.completed ∨ name ∈ s.failed := by
  let Below := { dep // TransGen (DependsOn cfg) name dep }
  have finite : Finite Below :=
    (cfg.keys.finite_toSet.subset fun dep below => (clear dep below).1).to_subtype
  let before (d e : Below) : Prop := TransGen (DependsOn cfg) e.1 d.1
  have irrefl : Std.Irrefl before := ⟨fun d => (clear d.1 d.2).2.2⟩
  have trans : IsTrans Below before := ⟨fun _ _ _ first second => second.trans first⟩
  have wellFounded : WellFounded before := Finite.wellFounded_of_trans_of_irrefl before
  have completed (d : Below) : d.1 ∈ s.completed := by
    induction d using wellFounded.induction with
    | _ d ih =>
      obtain ⟨listed, passes, -⟩ := clear d.1 d.2
      have done := inv.ran unready listed fun dep depends =>
        ih ⟨dep, d.2.tail depends⟩ (.single depends)
      refine done.resolve_right fun failed => ?_
      simp [inv.failed d.1 failed] at passes
  exact inv.ran unready mem fun dep depends => completed ⟨dep, .single depends⟩

theorem skipped_perm (inv : Invariant cfg s) :
    (s.completed ++ s.failed ++ skipped cfg s).Perm cfg.keys := by
  have nodup := (List.nodup_append.mp inv.nodup).1
  have keys_nodup : cfg.keys.Nodup := cfg.keys_nodup
  rw [List.perm_ext_iff_of_nodup ?_ keys_nodup]
  · intro name
    have listed : name ∈ s.completed ∨ name ∈ s.failed → name ∈ cfg.keys := fun done =>
      (inv.reachable name (done.imp_right .inl)).mem_keys
    simp only [List.mem_append, skipped, List.mem_filter, Bool.and_eq_true, Bool.not_eq_true',
      List.contains_eq_mem, decide_eq_false_iff_not]
    tauto
  · refine List.nodup_append.mpr ⟨nodup, keys_nodup.filter _, ?_⟩
    rintro name done other left rfl
    simp only [skipped, List.mem_filter] at left
    simp_all

/-- The loop ends for every order in which the checks finish. Each check is submitted at most once,
after the success of its dependencies and never with a failed one, and is run if all that it
depends on can succeed. -/
theorem main_schedules (cfg : Config Check)
    (known : ∀ name ∈ cfg.keys, cfg.checks name ≠ none) (pick : State → Nat) :
    ∃ s, main cfg pick = some (verdict s, s) ∧
      (s.log.filterMap Event.submitted).Nodup ∧
      (∀ before name, before ++ [.submit name] <+: s.log → ∀ dep, DependsOn cfg name dep →
        .finish dep true ∈ before ∧ .finish dep false ∉ s.log) ∧
      (s.completed ++ s.failed ++ skipped cfg s).Perm cfg.keys ∧
      (∀ name, name ∈ s.completed ↔ .finish name true ∈ s.log) ∧
      (∀ name, name ∈ s.failed ↔ .finish name false ∈ s.log) ∧
      ∀ name ∈ cfg.keys, Clear cfg name → .submit name ∈ s.log ∧
        (name ∈ s.completed ∨ name ∈ s.failed) := by
  obtain ⟨v, s, ran, halted⟩ := mainLoop_halted pick (cfg.checksAndDeps.length + 1)
    (Invariant.start : Invariant cfg {}) (by simp)
  have logged : Logged cfg s := mainLoop_logged .start ran
  have inv := halted.invariant
  rcases halted.cause with ⟨-, name, reachable, undefined⟩ | ⟨rfl, idle, unready⟩
  · exact absurd undefined (known name reachable.mem_keys)
  have submitted := logged.submitted
  refine ⟨s, ran, submitted.nodup_iff.mpr inv.nodup, fun before name here dep depends => ?_,
    skipped_perm inv, logged.completed, logged.failed, fun name mem clear => ?_⟩
  · have completed := logged.ordered before name here dep depends
    refine ⟨completed, fun failed => ?_⟩
    have early : before ⊆ s.log :=
      ((List.prefix_append before [.submit name]).trans here).subset
    have passes := inv.completed dep ((logged.completed dep).mpr (early completed))
    simp [inv.failed dep ((logged.failed dep).mpr failed)] at passes
  · have done := clear.ran inv unready mem
    have mem' : name ∈ s.log.filterMap Event.submitted :=
      submitted.mem_iff.mpr (List.mem_append_left _ (List.mem_append.mpr done))
    obtain ⟨e, here, seen⟩ := List.mem_filterMap.mp mem'
    cases e with
    | submit other =>
      obtain rfl : other = name := by simpa [Event.submitted] using seen
      exact ⟨here, done⟩
    | finish => simp [Event.submitted] at seen

end Main

/-- A check that depends on another one, which comes after it in the checkset. -/
def chain : Config Unit where
  checksAndDeps := [("test", ["build"]), ("build", [])]
  keys_nodup := by decide
  checks := fun _ => some ()
  runCheck := fun _ _ => true

theorem clear_chain : Clear chain "test" := by
  have depends {name dep : String} (h : DependsOn chain name dep) :
      name = "test" ∧ dep = "build" := by
    obtain ⟨deps, listed, here⟩ := h
    rcases List.mem_pair.mp listed with same | same
    all_goals simp_all
  intro dep below
  have last : dep = "build" := by
    cases below with
    | single h => exact (depends h).2
    | tail _ h => exact (depends h).2
  subst last
  refine ⟨by decide, by decide, fun cycle => ?_⟩
  cases Relation.TransGen.head'_iff.mp cycle with
  | intro _ h => simpa using (depends h.1).1

/-- The dependent check is run. -/
theorem chain_schedules : ∃ s, main chain (fun _ => 0) = some (verdict s, s) ∧
    .submit "test" ∈ s.log := by
  obtain ⟨s, ran, -, -, -, -, -, runs⟩ :=
    main_schedules chain (by simp [chain]) fun _ => 0
  exact ⟨s, ran, (runs "test" (by decide) clear_chain).1⟩

end LibCxxExt.Workflows.AllPush
