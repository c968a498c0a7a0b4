import Mathlib.Data.List.Nodup
import Mathlib.Data.List.Perm.Subperm

/-! The scheduling loop and the verdict of `all_push.py`. Checks are submitted to a thread pool once
their dependencies are completed, and the loop takes one finished check at a time, in any order. It
stops when nothing is left to wait for, and the verdict only looks at the failures. -/

namespace LibCxxExt.Workflows.AllPush

/-! ### The model -/

/-- A checkset: the items of the dictionary `checks_and_deps`, in their order, with the dictionary
`checks` and what running a check of it comes to. -/
structure Config (Check : Type) where
  checksAndDeps : List (String × List String)
  keys_nodup : (checksAndDeps.map Prod.fst).Nodup
  checks : String → Option Check
  runCheck : String → Check → Bool

/-- What is submitted to the thread pool, and what is taken out of the dictionary of futures. -/
inductive Event
  | submit (name : String)
  | finish (name : String) (passed : Bool)
  deriving DecidableEq, Repr

/-- The sets `completed` and `failed`, the keys of `pending_futures`, and what has happened so far.
-/
structure State where
  completed : List String := []
  failed : List String := []
  pending : List String := []
  log : List Event := []
  deriving DecidableEq, Repr

/-- How `main` ends: by `lcheck_passed`, by `lcheck_failed` or by a `KeyError`. -/
inductive Verdict
  | passed
  | failed
  | raised
  deriving DecidableEq, Repr

variable {Check : Type}

def Config.keys (cfg : Config Check) : List String := cfg.checksAndDeps.map Prod.fst

/-- The check has a definition and its script succeeds. -/
def Config.passes (cfg : Config Check) (name : String) : Bool :=
  (cfg.checks name).any (cfg.runCheck name)

/-- `is_ready` of a key of the dictionary. -/
def isReady (s : State) (item : String × List String) : Bool :=
  !(s.completed.contains item.1 || s.failed.contains item.1) &&
    (item.2.all fun dep => s.completed.contains dep) &&
    !(item.2.any fun dep => s.failed.contains dep)

def submit (s : State) (name : String) : State :=
  { s with pending := s.pending ++ [name], log := s.log ++ [.submit name] }

/-- The loop that submits what is ready. A check without a definition is a `KeyError`. -/
def submitReady (cfg : Config Check) : List (String × List String) → State → Except State State
  | [], s => .ok s
  | item :: rest, s =>
    if isReady s item && !s.pending.contains item.1 then
      match cfg.checks item.1 with
      | none => .error s
      | some _ => submitReady cfg rest (submit s item.1)
    else submitReady cfg rest s

/-- A finished future is taken out of the dictionary and its check into one of the sets. -/
def finish (cfg : Config Check) (s : State) (name : String) : State :=
  let log := s.log ++ [.finish name (cfg.passes name)]
  let s := { s with pending := s.pending.erase name, log }
  if cfg.passes name then { s with completed := s.completed ++ [name] }
  else { s with failed := s.failed ++ [name] }

def verdict (s : State) : Verdict := if s.failed.length > 0 then .failed else .passed

/-- The `while` loop. `pick` tells which of the pending checks finishes first, given all that has
happened so far. The result is `none` when the loop takes more than `fuel` rounds. -/
def mainLoop (cfg : Config Check) (pick : State → Nat) : Nat → State → Option (Verdict × State)
  | 0, _ => none
  | fuel + 1, s =>
    if s.completed.length + s.failed.length < cfg.checksAndDeps.length then
      match submitReady cfg cfg.checksAndDeps s with
      | .error s => some (.raised, s)
      | .ok s =>
        if s.pending.isEmpty then some (verdict s, s)
        else do mainLoop cfg pick fuel (finish cfg s (← s.pending[pick s % s.pending.length]?))
    else some (verdict s, s)

def main (cfg : Config Check) (pick : State → Nat) : Option (Verdict × State) :=
  mainLoop cfg pick (cfg.checksAndDeps.length + 1) {}

/-- The check was submitted, and what is submitted is executed to its end. -/
def State.Executed (s : State) (name : String) : Prop :=
  name ∈ s.completed ∨ name ∈ s.failed ∨ name ∈ s.pending

/-- The dependencies of the check are checks of the checkset that can be reached themselves. A check
that depends on a cycle or on a name that is not in the checkset cannot. -/
inductive Reachable (cfg : Config Check) : String → Prop
  | mk {name : String} {deps : List String} : (name, deps) ∈ cfg.checksAndDeps →
    (∀ dep ∈ deps, Reachable cfg dep) → Reachable cfg name

theorem State.executed_iff {s : State} {name : String} :
    s.Executed name ↔ name ∈ s.completed ++ s.failed ++ s.pending := by
  simp [State.Executed]

theorem Reachable.mem_keys {cfg : Config Check} {name : String} (h : Reachable cfg name) :
    name ∈ cfg.keys := by
  cases h with
  | mk item _ => exact List.mem_map_of_mem item

/-! ### The loop -/

/-- What is known in every round. Only checks that can be reached are ever submitted. -/
structure Invariant (cfg : Config Check) (s : State) : Prop where
  nodup : (s.completed ++ s.failed ++ s.pending).Nodup
  reachable : ∀ name, s.Executed name → Reachable cfg name
  completed : ∀ name ∈ s.completed, cfg.passes name = true
  failed : ∀ name ∈ s.failed, cfg.passes name = false

section Rounds

variable {cfg : Config Check} {s s' : State} {item : String × List String} {name : String}

theorem isReady_iff : isReady s item = true ↔
    (item.1 ∉ s.completed ∧ item.1 ∉ s.failed) ∧ (∀ dep ∈ item.2, dep ∈ s.completed) ∧
      ∀ dep ∈ item.2, dep ∉ s.failed := by
  simp [isReady, and_assoc]

theorem Invariant.reaches (inv : Invariant cfg s) (mem : item ∈ cfg.checksAndDeps)
    (ready : isReady s item = true) : Reachable cfg item.1 :=
  .mk mem fun dep hdep => inv.reachable dep (.inl ((isReady_iff.mp ready).2.1 dep hdep))

theorem Invariant.submit (inv : Invariant cfg s) (mem : item ∈ cfg.checksAndDeps)
    (ready : isReady s item = true) (idle : item.1 ∉ s.pending) :
    Invariant cfg (submit s item.1) where
  nodup := by
    obtain ⟨⟨open_, unfailed⟩, -⟩ := isReady_iff.mp ready
    rw [AllPush.submit, ← List.append_assoc, List.nodup_append_comm, List.singleton_append,
      List.nodup_cons]
    exact ⟨by simp [open_, unfailed, idle], inv.nodup⟩
  reachable := by
    rintro other (done | failed | pending)
    · exact inv.reachable other (.inl done)
    · exact inv.reachable other (.inr (.inl failed))
    · rcases List.mem_append.mp pending with before | new
      · exact inv.reachable other (.inr (.inr before))
      · rw [List.mem_singleton.mp new]
        exact inv.reaches mem ready
  completed := inv.completed
  failed := inv.failed

/-- The submission loop leaves what is ready pending. -/
theorem submitReady_ok {items : List (String × List String)}
    (known : ∀ item ∈ items, item ∈ cfg.checksAndDeps) (inv : Invariant cfg s)
    (submitted : submitReady cfg items s = .ok s') :
    Invariant cfg s' ∧ (s'.completed = s.completed ∧ s'.failed = s.failed) ∧
      s.pending ⊆ s'.pending ∧ ∀ item ∈ items, isReady s item = true → item.1 ∈ s'.pending := by
  induction items generalizing s with
  | nil =>
    obtain rfl : s = s' := by simpa [submitReady] using submitted
    exact ⟨inv, ⟨rfl, rfl⟩, List.Subset.refl _, by simp⟩
  | cons item rest ih =>
    obtain ⟨here, later⟩ := List.forall_mem_cons.mp known
    rw [submitReady] at submitted
    split at submitted
    · next new =>
      obtain ⟨ready, idle⟩ : isReady s item = true ∧ item.1 ∉ s.pending := by simpa using new
      cases defined : cfg.checks item.1 with
      | none => simp [defined] at submitted
      | some check =>
        rw [defined] at submitted
        obtain ⟨inv', same, kept, all⟩ := ih later (inv.submit here ready idle) submitted
        refine ⟨inv', same, fun x hx => kept (List.mem_append_left _ hx), ?_⟩
        refine List.forall_mem_cons.mpr ⟨fun _ => kept (by simp [submit]), fun x hx readyX => ?_⟩
        exact all x hx readyX
    · next old =>
      obtain ⟨inv', same, kept, all⟩ := ih later inv submitted
      refine ⟨inv', same, kept, List.forall_mem_cons.mpr ⟨fun ready => kept ?_, all⟩⟩
      simpa [ready] using old

theorem submitReady_error {items : List (String × List String)}
    (known : ∀ item ∈ items, item ∈ cfg.checksAndDeps) (inv : Invariant cfg s)
    (stopped : submitReady cfg items s = .error s') :
    Invariant cfg s' ∧ ∃ name, Reachable cfg name ∧ cfg.checks name = none := by
  induction items generalizing s with
  | nil => simp [submitReady] at stopped
  | cons item rest ih =>
    obtain ⟨here, later⟩ := List.forall_mem_cons.mp known
    rw [submitReady] at stopped
    split at stopped
    · next new =>
      obtain ⟨ready, idle⟩ : isReady s item = true ∧ item.1 ∉ s.pending := by simpa using new
      cases defined : cfg.checks item.1 with
      | none =>
        obtain rfl : s = s' := by simpa [defined] using stopped
        exact ⟨inv, item.1, inv.reaches here ready, defined⟩
      | some check =>
        rw [defined] at stopped
        exact ih later (inv.submit here ready idle) stopped
    · exact ih later inv stopped

/-- A finished check moves from one list to another. -/
theorem finish_perm (cfg : Config Check) (pending : name ∈ s.pending) :
    ((finish cfg s name).completed ++ (finish cfg s name).failed ++
      (finish cfg s name).pending).Perm (s.completed ++ s.failed ++ s.pending) := by
  have taken : (s.completed ++ s.failed ++ s.pending).Perm
      (s.completed ++ s.failed ++ name :: s.pending.erase name) :=
    (List.perm_cons_erase pending).append_left _
  refine List.Perm.trans ?_ taken.symm
  unfold finish
  split
  · have moved : (name :: (s.failed ++ s.pending.erase name)).Perm
        (s.failed ++ name :: s.pending.erase name) := List.perm_middle.symm
    simpa using moved.append_left s.completed
  · simp

theorem mem_completed_finish {other : String} : other ∈ (finish cfg s name).completed ↔
    other ∈ s.completed ∨ other = name ∧ cfg.passes name = true := by
  cases passes : cfg.passes name <;> simp [finish, passes]

theorem mem_failed_finish {other : String} : other ∈ (finish cfg s name).failed ↔
    other ∈ s.failed ∨ other = name ∧ cfg.passes name = false := by
  cases passes : cfg.passes name <;> simp [finish, passes]

theorem Invariant.finish (inv : Invariant cfg s) (pending : name ∈ s.pending) :
    Invariant cfg (finish cfg s name) ∧
      (finish cfg s name).completed.length + (finish cfg s name).failed.length =
        s.completed.length + s.failed.length + 1 := by
  have same := finish_perm cfg pending
  refine ⟨⟨same.nodup_iff.mpr inv.nodup, fun other executed => ?_, fun other done => ?_,
    fun other done => ?_⟩, ?_⟩
  · apply inv.reachable
    rw [State.executed_iff] at executed ⊢
    exact same.mem_iff.mp executed
  · rcases mem_completed_finish.mp done with before | ⟨rfl, passes⟩
    · exact inv.completed other before
    · exact passes
  · rcases mem_failed_finish.mp done with before | ⟨rfl, fails⟩
    · exact inv.failed other before
    · exact fails
  · unfold AllPush.finish
    split <;> simp <;> omega

end Rounds

/-! ### The verdict -/

/-- How the loop stops: at a check without a definition, or with nothing pending and nothing ready.
-/
structure Halted (cfg : Config Check) (v : Verdict) (s : State) : Prop where
  invariant : Invariant cfg s
  cause : (v = .raised ∧ ∃ name, Reachable cfg name ∧ cfg.checks name = none) ∨
    (v = verdict s ∧ s.pending = [] ∧ ∀ item ∈ cfg.checksAndDeps, isReady s item = false)

/-- How the loop ends: by a missing definition, or with nothing pending and, unless a check failed,
with every check completed that can be reached. -/
structure Ended (cfg : Config Check) (v : Verdict) (s : State) : Prop where
  invariant : Invariant cfg s
  cause : (v = .raised ∧ ∃ name, Reachable cfg name ∧ cfg.passes name = false) ∨
    (v = verdict s ∧ s.pending = [] ∧
      (s.failed = [] → ∀ name, Reachable cfg name → name ∈ s.completed))

section Main

variable {cfg : Config Check} {s : State}

theorem Invariant.executed_mem_keys (inv : Invariant cfg s) :
    ∀ name ∈ s.completed ++ s.failed ++ s.pending, name ∈ cfg.keys := by
  intro name mem
  exact (inv.reachable name (State.executed_iff.mpr mem)).mem_keys

theorem Invariant.length_le (inv : Invariant cfg s) :
    s.completed.length + s.failed.length + s.pending.length ≤ cfg.checksAndDeps.length := by
  have fits := (inv.nodup.subperm inv.executed_mem_keys).length_le
  rwa [List.length_append, List.length_append, Config.keys, List.length_map] at fits

/-- Nothing is left to do when as many checks finished as there are. -/
theorem Invariant.all_finished (inv : Invariant cfg s)
    (all : cfg.checksAndDeps.length ≤ s.completed.length + s.failed.length) :
    Halted cfg (verdict s) s := by
  have fits := inv.length_le
  have idle : s.pending = [] := List.eq_nil_of_length_eq_zero (by omega)
  refine ⟨inv, .inr ⟨rfl, idle, fun item mem => ?_⟩⟩
  have same := (inv.nodup.subperm inv.executed_mem_keys).perm_of_length_le
    (by simp [Config.keys, idle]; omega)
  have done : item.1 ∈ s.completed ∨ item.1 ∈ s.failed := by
    have listed := same.mem_iff.mpr (List.mem_map_of_mem mem)
    simpa [idle] using listed
  by_contra ready
  obtain ⟨⟨open_, unfailed⟩, -⟩ := isReady_iff.mp (by simpa using ready)
  exact done.elim open_ unfailed

/-- The loop stops, whatever checks finish first. -/
theorem mainLoop_halted (pick : State → Nat) (fuel : Nat) (inv : Invariant cfg s)
    (enough : cfg.checksAndDeps.length < s.completed.length + s.failed.length + fuel) :
    ∃ v s', mainLoop cfg pick fuel s = some (v, s') ∧ Halted cfg v s' := by
  induction fuel generalizing s with
  | zero =>
    have := inv.length_le
    omega
  | succ fuel ih =>
    rw [mainLoop]
    split
    · cases submitted : submitReady cfg cfg.checksAndDeps s with
      | error s' =>
        obtain ⟨inv', missing⟩ := submitReady_error (fun _ h => h) inv submitted
        exact ⟨.raised, s', rfl, inv', .inl ⟨rfl, missing⟩⟩
      | ok s' =>
        obtain ⟨inv', ⟨sameC, sameF⟩, -, all⟩ := submitReady_ok (fun _ h => h) inv submitted
        by_cases idle : s'.pending = []
        · refine ⟨verdict s', s', by simp [idle], inv', .inr ⟨rfl, idle, fun item mem => ?_⟩⟩
          have same : isReady s' item = isReady s item := by simp [isReady, sameC, sameF]
          by_contra ready
          have pending := all item mem (same ▸ by simpa using ready)
          simp [idle] at pending
        · have inside : pick s' % s'.pending.length < s'.pending.length :=
            Nat.mod_lt _ (List.length_pos_of_ne_nil idle)
          obtain ⟨inv'', counted⟩ := inv'.finish (List.getElem_mem inside)
          obtain ⟨v, last, ran, halted⟩ := ih inv'' (by rw [counted, sameC, sameF]; omega)
          refine ⟨v, last, ?_, halted⟩
          simpa [idle, List.getElem?_eq_getElem inside] using ran
    · exact ⟨verdict s, s, rfl, inv.all_finished (by omega)⟩

/-- Where nothing is ready and no check failed, all that can be reached is completed. -/
theorem Halted.ended {v : Verdict} (halted : Halted cfg v s) : Ended cfg v s := by
  refine ⟨halted.invariant, ?_⟩
  rcases halted.cause with ⟨raised, name, reachable, undefined⟩ | ⟨same, idle, unready⟩
  · exact .inl ⟨raised, name, reachable, by simp [Config.passes, undefined]⟩
  · refine .inr ⟨same, idle, fun none name reachable => ?_⟩
    induction reachable with
    | @mk name deps item _ completed =>
      by_contra open_
      have ready : isReady s (name, deps) = true :=
        isReady_iff.mpr ⟨⟨open_, by simp [none]⟩, completed, by simp [none]⟩
      simp [unready _ item] at ready

theorem Invariant.start : Invariant cfg {} where
  nodup := List.nodup_nil
  reachable := by
    rintro name (h | h | h) <;> simp at h
  completed := by simp
  failed := by simp

/-- Everything ran and passed. -/
def AllPassed (cfg : Config Check) (s : State) : Prop :=
  ∀ name ∈ cfg.keys, s.Executed name ∧ cfg.passes name = true

/-- The verdict is right exactly if every check can be reached, or one that can be reached has no
definition or fails. -/
theorem Ended.verdict_iff {v : Verdict} (ended : Ended cfg v s) :
    (v = .passed ↔ AllPassed cfg s) ↔ (∀ name ∈ cfg.keys, Reachable cfg name) ∨
      ∃ name, Reachable cfg name ∧ cfg.passes name = false := by
  have inv := ended.invariant
  have spoiled (missing : ∃ name, Reachable cfg name ∧ cfg.passes name = false) :
      ¬ AllPassed cfg s := by
    obtain ⟨name, reachable, fails⟩ := missing
    intro all
    simp [(all name reachable.mem_keys).2] at fails
  rcases ended.cause with ⟨rfl, missing⟩ | ⟨rfl, idle, complete⟩
  · simp [spoiled missing, missing]
  · rcases failed : s.failed with _ | ⟨name, rest⟩
    · have passed : verdict s = .passed := by simp [verdict, failed]
      have completed := complete failed
      have ran (name : String) : s.Executed name ↔ name ∈ s.completed := by
        simp [State.Executed, failed, idle]
      have none : ¬ ∃ name, Reachable cfg name ∧ cfg.passes name = false := by
        rintro ⟨name, reachable, fails⟩
        simp [inv.completed name (completed name reachable)] at fails
      rw [iff_true_left passed, or_iff_left none]
      constructor
      · exact fun all name mem => inv.reachable name (all name mem).1
      · intro all name mem
        have done := completed name (all name mem)
        exact ⟨(ran name).mpr done, inv.completed name done⟩
    · have mem : name ∈ s.failed := by simp [failed]
      have missing : ∃ name, Reachable cfg name ∧ cfg.passes name = false :=
        ⟨name, inv.reachable name (.inr (.inl mem)), inv.failed name mem⟩
      simp [verdict, failed, spoiled missing, missing]

/-- `main` always ends, and it reports a pass if and only if every check ran and passed, exactly
when every check of the checkset can be reached or one that can be reached does not pass. -/
theorem main_verdict_iff (cfg : Config Check) (pick : State → Nat) :
    ∃ v s, main cfg pick = some (v, s) ∧
      ((v = .passed ↔ AllPassed cfg s) ↔ (∀ name ∈ cfg.keys, Reachable cfg name) ∨
        ∃ name, Reachable cfg name ∧ cfg.passes name = false) := by
  have start : Invariant cfg {} := .start
  obtain ⟨v, s, ran, halted⟩ := mainLoop_halted pick (cfg.checksAndDeps.length + 1) start (by simp)
  exact ⟨v, s, ran, halted.ended.verdict_iff⟩

end Main

/-- A checkset of one check that depends on itself. -/
def selfDependent : Config Unit where
  checksAndDeps := [("build", ["build"])]
  keys_nodup := by decide
  checks := fun _ => some ()
  runCheck := fun _ _ => true

/-- Nothing is run, and the job passes. -/
theorem selfDependent_passes : main selfDependent (fun _ => 0) = some (.passed, {}) ∧
    ¬ AllPassed selfDependent {} := by
  refine ⟨by decide, fun all => ?_⟩
  obtain ⟨h | h | h, -⟩ := all "build" (by decide) <;> simp at h

end LibCxxExt.Workflows.AllPush
