import LibCxxExt.Containers.InplaceAtomicSet

/-! The search of `exchange`. A call looks at one slot after the other, while other threads go on.
It acts on the multiset of the values at one moment, unless the value it looks for is stored into a
slot that it has already passed. -/

namespace LibCxxExt.Containers.InplaceAtomicSet

open LibCxxExt.ProofKit

/-- `exchange` as one step on a multiset. -/
inductive Effect {T : Type} (call : Call T) : Multiset T → Bool → Multiset T → Prop
  | exchanged (rest : Multiset T) :
    Effect call (call.source ::ₘ rest) true (call.target ::ₘ rest)
  | missed {m : Multiset T} : call.source ∉ m → Effect call m false m

variable {Tid T : Type} [DecidableEq Tid] {n : Nat} {init : T}

section Definitions

variable (t : Tid) (call : Call T) (start : ThreadState Tid (Fin n → T) (Pc T))
  (steps : List ((Tid × Event T) × ThreadState Tid (Fin n → T) (Pc T)))

/-- `start` is the state in which the call of `t` begins, and `steps` is what happened since. -/
def Began (init : T) (es : List (Tid × Event T)) (s : ThreadState Tid (Fin n → T) (Pc T)) : Prop :=
  ∃ before s₀, es = before ++ (t, .call call) :: steps.map Prod.fst ∧
    (program Tid T n init).Run before s₀ ∧
    (program Tid T n init).Step s₀ (t, .call call) start ∧
    (program Tid T n init).Path start steps s

/-- The call takes effect in its successful step, or at a moment that finds it nothing. -/
def TakesEffect (init : T) : Bool → Prop
  | true => ∃ past m m' later, steps = past ++ ((t, .exchange call), m') :: later ∧
      (program Tid T n init).Path start past m ∧
      (program Tid T n init).Step m (t, .exchange call) m' ∧
      Effect call (values m.shared) true (values m'.shared)
  | false => ∃ m ∈ Program.moments start steps,
      Effect call (values m.shared) false (values m.shared)

/-- While `t` is before the `i`-th round, another thread stores the value that it looks for into a
slot that it has passed. -/
def Overtaken (init : T) : Prop :=
  ∃ past m e m' later, steps = past ++ (e, m') :: later ∧
    (program Tid T n init).Path start past m ∧ (program Tid T n init).Step m e m' ∧ e.1 ≠ t ∧
    ∃ (i : Nat) (j : Fin n), m.pc t = .round call i ∧ j < i ∧
      m.shared j ≠ call.source ∧ m'.shared j = call.source

/-- The slots before the `i`-th differed from the value when they were looked at, and still do but
for an overtaking. -/
def Searched (init : T) (s : ThreadState Tid (Fin n → T) (Pc T)) (i : Nat) : Prop :=
  (∀ j : Fin n, j < i → ∃ m ∈ Program.moments start steps, m.shared j ≠ call.source) ∧
    (Overtaken t call start steps init ∨ ∀ j : Fin n, j < i → s.shared j ≠ call.source)

/-- What is known of a call that is about to return. -/
def Searches (init : T) : Bool → Prop
  | true => TakesEffect t call start steps init true
  | false => call.weak = false →
    (∀ j : Fin n, ∃ m ∈ Program.moments start steps, m.shared j ≠ call.source) ∧
      (Overtaken t call start steps init ∨ TakesEffect t call start steps init false)

end Definitions

/-- What is known of a thread at `pc`. -/
def Progress (init : T) (t : Tid) (es : List (Tid × Event T))
    (s : ThreadState Tid (Fin n → T) (Pc T)) : Pc T → Prop
  | .idle => True
  | .round call i => ∃ start steps, Began t call start steps init es s ∧
      Program.eventsOf t (steps.map Prod.fst) = List.replicate i .compare ∧
      (call.weak = false → Searched t call start steps init s i)
  | .leave call exchanged => ∃ start steps, Began t call start steps init es s ∧
      (∃ i, Program.eventsOf t (steps.map Prod.fst) =
        List.replicate i .compare ++ if exchanged then [.exchange call] else []) ∧
      Searches t call start steps init exchanged

section Steps

variable {t : Tid} {call : Call T} {es : List (Tid × Event T)} {e : Tid × Event T}
  {start s s' : ThreadState Tid (Fin n → T) (Pc T)} {i : Nat} {exchanged : Bool}
  {steps : List ((Tid × Event T) × ThreadState Tid (Fin n → T) (Pc T))}

theorem Began.step (began : Began t call start steps init es s)
    (moved : (program Tid T n init).Step s e s') :
    Began t call start (steps ++ [(e, s')]) init (es ++ [e]) s' := by
  obtain ⟨before, s₀, rfl, run, called, path⟩ := began
  exact ⟨before, s₀, by simp, run, called, path.step moved⟩

theorem Overtaken.snoc (overtaken : Overtaken t call start steps init) :
    Overtaken t call start (steps ++ [(e, s')]) init := by
  obtain ⟨past, m, e', m', later, rfl, rest⟩ := overtaken
  exact ⟨past, m, e', m', later ++ [(e, s')], by simp, rest⟩

theorem TakesEffect.snoc (effect : TakesEffect t call start steps init exchanged) :
    TakesEffect t call start (steps ++ [(e, s')]) init exchanged := by
  cases exchanged with
  | true =>
    obtain ⟨past, m, m', later, rfl, rest⟩ := effect
    exact ⟨past, m, m', later ++ [(e, s')], by simp, rest⟩
  | false =>
    obtain ⟨m, mem, missed⟩ := effect
    exact ⟨m, Program.mem_moments_snoc mem, missed⟩

omit [DecidableEq Tid] in
theorem exists_moment_snoc {j : Fin n}
    (seen : ∃ m ∈ Program.moments start steps, m.shared j ≠ call.source) :
    ∃ m ∈ Program.moments start (steps ++ [(e, s')]), m.shared j ≠ call.source := by
  obtain ⟨m, mem, differs⟩ := seen
  exact ⟨m, Program.mem_moments_snoc mem, differs⟩

/-- A step of another thread may store the value behind the search. -/
theorem Searched.other (searched : Searched t call start steps init s i)
    (began : Began t call start steps init es s) (at_ : s.pc t = .round call i)
    (moved : (program Tid T n init).Step s e s') (other : e.1 ≠ t) :
    Searched t call start (steps ++ [(e, s')]) init s' i := by
  obtain ⟨-, -, -, -, -, path⟩ := began
  refine ⟨fun j passed => exists_moment_snoc (searched.1 j passed), ?_⟩
  rcases searched.2 with overtaken | clear
  · exact .inl overtaken.snoc
  · by_cases stored : ∃ j : Fin n, j < i ∧ s'.shared j = call.source
    · obtain ⟨j, passed, same⟩ := stored
      exact .inl ⟨steps, s, e, s', [], rfl, path, moved, other, i, j, at_, passed,
        clear j passed, same⟩
    · exact .inr fun j passed same => stored ⟨j, passed, same⟩

/-- The search goes on over a slot that differs. -/
theorem Searched.differs {j : Fin n} (searched : Searched t call start steps init s j)
    (began : Began t call start steps init es s) (apart : s.shared j ≠ call.source)
    (same : s'.shared = s.shared) :
    Searched t call start (steps ++ [(e, s')]) init s' (j + 1) := by
  obtain ⟨-, -, -, -, -, path⟩ := began
  constructor
  · intro k passed
    refine exists_moment_snoc ?_
    rcases Nat.lt_succ_iff_lt_or_eq.mp passed with before | here
    · exact searched.1 k before
    · exact ⟨s, path.last_mem, Fin.ext here ▸ apart⟩
  · rcases searched.2 with overtaken | clear
    · exact .inl overtaken.snoc
    · refine .inr fun k passed => ?_
      rw [same]
      rcases Nat.lt_succ_iff_lt_or_eq.mp passed with before | here
      · exact clear k before
      · exact Fin.ext here ▸ apart

/-- A search over all slots has found nothing. -/
theorem Searched.exhausted (searched : Searched t call start steps init s i)
    (began : Began t call start steps init es s) (all : ¬ i < n) :
    (∀ j : Fin n, ∃ m ∈ Program.moments start steps, m.shared j ≠ call.source) ∧
      (Overtaken t call start steps init ∨ TakesEffect t call start steps init false) := by
  obtain ⟨-, -, -, -, -, path⟩ := began
  have passed (j : Fin n) : j < i := by omega
  refine ⟨fun j => searched.1 j (passed j), searched.2.imp_right fun clear => ?_⟩
  refine ⟨s, path.last_mem, .missed ?_⟩
  simp only [values, Multiset.mem_map, not_exists, not_and]
  exact fun j _ same => clear j (passed j) same

theorem TakesEffect.exchange {i : Fin n} (began : Began t call start steps init es s)
    (moved : (program Tid T n init).Step s (t, .exchange call) s') (same : s.shared i = call.source)
    (stored : s'.shared = Function.update s.shared i call.target) :
    TakesEffect t call start (steps ++ [((t, .exchange call), s')]) init true := by
  obtain ⟨-, -, -, -, -, path⟩ := began
  obtain ⟨rest, before, after⟩ := values_update s.shared i call.target
  refine ⟨steps, s, s', [], rfl, path, moved, ?_⟩
  rw [stored, before, after, same]
  exact .exchanged rest

theorem Searches.snoc (searches : Searches t call start steps init exchanged) :
    Searches t call start (steps ++ [(e, s')]) init exchanged := by
  cases exchanged with
  | true =>
    have effect : TakesEffect t call start steps init true := searches
    exact effect.snoc
  | false =>
    intro strong
    obtain ⟨seen, missed⟩ := searches strong
    exact ⟨fun j => exists_moment_snoc (seen j), missed.imp Overtaken.snoc TakesEffect.snoc⟩

end Steps

/-! ### Runs -/

section Runs

variable {t u : Tid} {es : List (Tid × Event T)} {e : Event T} {pc : Pc T}
  {s s' : ThreadState Tid (Fin n → T) (Pc T)}

/-- What is known of a thread stays known when another one moves. -/
theorem Progress.other (progress : Progress init t es s pc) (at_ : s.pc t = pc)
    (moved : (program Tid T n init).Step s (u, e) s') (other : u ≠ t) :
    Progress init t (es ++ [(u, e)]) s' pc := by
  have unseen (steps : List ((Tid × Event T) × ThreadState Tid (Fin n → T) (Pc T))) :
      Program.eventsOf t ((steps ++ [((u, e), s')]).map Prod.fst) =
        Program.eventsOf t (steps.map Prod.fst) := by
    rw [List.map_append]
    exact Program.eventsOf_other other e _
  cases pc with
  | idle => trivial
  | round call i =>
    obtain ⟨start, steps, began, own, searched⟩ := progress
    exact ⟨start, _, began.step moved, (unseen steps).trans own,
      fun strong => (searched strong).other began at_ moved other⟩
  | leave call exchanged =>
    obtain ⟨start, steps, began, ⟨i, own⟩, searches⟩ := progress
    exact ⟨start, _, began.step moved, ⟨i, (unseen steps).trans own⟩, searches.snoc⟩

/-- A step of the thread itself. -/
theorem Progress.own (run : (program Tid T n init).Run es s)
    (progress : Progress init t es s (s.pc t))
    (moved : (program Tid T n init).Step s (t, e) s') :
    Progress init t (es ++ [(t, e)]) s' (s'.pc t) := by
  have seen (steps : List ((Tid × Event T) × ThreadState Tid (Fin n → T) (Pc T))) :
      Program.eventsOf t ((steps ++ [((t, e), s')]).map Prod.fst) =
        Program.eventsOf t (steps.map Prod.fst) ++ [e] := by
    rw [List.map_append]
    exact Program.eventsOf_same t e _
  have compared {i : Nat} : List.replicate i Event.compare ++ [Event.compare (T := T)] =
      List.replicate (i + 1) .compare :=
    List.replicate_succ'.symm
  have kept := moved
  obtain ⟨pc, shared, pc', at_, step, rfl⟩ := moved.inv
  rw [at_] at progress
  have own_ : (⟨shared, Function.update s.pc t pc'⟩ :
      ThreadState Tid (Fin n → T) (Pc T)).pc t = pc' :=
    Function.update_self ..
  rw [own_]
  cases step with
  | call call =>
    refine ⟨_, [], ⟨es, s, rfl, run, kept, .refl⟩, rfl, fun _ => ⟨?_, .inr ?_⟩⟩
    all_goals exact fun j passed => absurd passed (Nat.not_lt_zero _)
  | @exchanged call i same =>
    obtain ⟨start, steps, began, own, -⟩ := progress
    exact ⟨start, _, began.step kept, ⟨i, by rw [seen, own]; rfl⟩, .exchange began kept same rfl⟩
  | @differs call i apart =>
    obtain ⟨start, steps, began, own, searched⟩ := progress
    refine ⟨start, _, began.step kept, by rw [seen, own, compared], fun strong => ?_⟩
    exact (searched strong).differs began apart rfl
  | @spurious call i weak =>
    obtain ⟨start, steps, began, own, -⟩ := progress
    exact ⟨start, _, began.step kept, by rw [seen, own, compared], by simp [weak]⟩
  | @exhausted call i all =>
    obtain ⟨start, steps, began, own, searched⟩ := progress
    refine ⟨start, _, began.step kept, ⟨i + 1, by rw [seen, own, compared]; simp⟩, ?_⟩
    have searches : Searches t call start _ init false := fun strong =>
      (searched strong).exhausted began all
    exact searches.snoc
  | ret => trivial

theorem progress_of_run (run : (program Tid T n init).Run es s) (t : Tid) :
    Progress init t es s (s.pc t) := by
  induction run with
  | start => trivial
  | @step es s s' e run moved ih =>
    obtain ⟨u, e⟩ := e
    by_cases same : u = t
    · subst same
      exact ih.own run moved
    · have stays : s'.pc t = s.pc t := by
        obtain ⟨_, _, _, -, -, rfl⟩ := moved.inv
        exact Function.update_of_ne (Ne.symm same) _ _
      rw [stays]
      exact ih.other rfl moved same

/-- A call of `exchange` acts on the multiset of the values at one moment, unless it finds nothing
after another thread has stored the value into a slot that it had passed. Every slot in which it
found nothing did not hold the value then. -/
theorem takes_effect (run : (program Tid T n init).Run es s) {exchanged : Bool}
    (moved : (program Tid T n init).Step s (t, .ret exchanged) s') :
    ∃ call start steps, Began t call start steps init es s ∧
      (∃ i, Program.eventsOf t (steps.map Prod.fst) =
        List.replicate i .compare ++ if exchanged then [.exchange call] else []) ∧
      (call.weak = false → TakesEffect t call start steps init exchanged ∨
        exchanged = false ∧ Overtaken t call start steps init) ∧
      (call.weak = false → exchanged = false →
        ∀ j : Fin n, ∃ m ∈ Program.moments start steps, m.shared j ≠ call.source) := by
  have progress := progress_of_run run t
  obtain ⟨pc, _, _, at_, step, -⟩ := moved.inv
  rw [at_] at progress
  cases step with
  | @ret call =>
    obtain ⟨start, steps, began, own, searches⟩ := progress
    refine ⟨call, start, steps, began, own, fun strong => ?_, fun strong missed => ?_⟩
    · cases exchanged with
      | true => exact .inl searches
      | false => exact (searches strong).2.symm.imp_right fun overtaken => ⟨rfl, overtaken⟩
    · subst missed
      exact (searches strong).1

/-- A single thread takes the first of two slots. -/
theorem takes_effect_first : ∃ call start steps es s, Began () call start steps 0 es s ∧
    (call.weak = false → TakesEffect (n := 2) () call start steps 0 true) := by
  have fresh := Program.Run.start (P := program Unit Nat 2 0)
  have called := fresh.step (.thread (t := ()) (.call ⟨false, 0, 7⟩))
  have exchanged := called.step (.thread (t := ()) (.exchanged 0 rfl))
  obtain ⟨call, start, steps, began, -, effect, -⟩ :=
    takes_effect exchanged (.thread (t := ()) .ret)
  exact ⟨call, start, steps, _, _, began, fun strong => (effect strong).elim id (by simp)⟩

/-- Thread 2 makes the slots 7 and 0, and threads 0 and 1 pass the first one in search of a 0.
Thread 2 then puts a 0 back into it, and thread 1 takes the other one. Thread 0 finds nothing,
though there was a 0 at every moment. -/
theorem misses : ∃ before s₀ start steps s s',
    (program (Fin 3) Nat 2 0).Run before s₀ ∧
    (program (Fin 3) Nat 2 0).Step s₀ (0, .call ⟨false, 0, 5⟩) start ∧
    (program (Fin 3) Nat 2 0).Path start steps s ∧
    Program.eventsOf 0 (steps.map Prod.fst) = List.replicate 3 .compare ∧
    (program (Fin 3) Nat 2 0).Step s (0, .ret false) s' ∧
    ∀ m ∈ Program.moments start steps, ∃ j, m.shared j = 0 := by
  have fresh := Program.Run.start (P := program (Fin 3) Nat 2 0)
  have called := fresh.step (.thread (t := 2) (.call ⟨false, 0, 7⟩))
  have taken := called.step (.thread (t := 2) (.exchanged 0 rfl))
  have before := taken.step (.thread (t := 2) .ret)
  refine ⟨_, _, _, _, _, _, before, .thread (.call _),
    .step (.step (.step (.step (.step (.step (.step (.step .refl
      (.thread (t := 0) (.differs 0 (by decide))))
      (.thread (t := 1) (.call ⟨false, 0, 9⟩)))
      (.thread (t := 1) (.differs 0 (by decide))))
      (.thread (t := 2) (.call ⟨false, 7, 0⟩)))
      (.thread (t := 2) (.exchanged 0 rfl)))
      (.thread (t := 1) (.exchanged 1 rfl)))
      (.thread (t := 0) (.differs 1 (by decide))))
      (.thread (t := 0) (.exhausted (by decide))), rfl, .thread .ret, by decide⟩

end Runs

end LibCxxExt.Containers.InplaceAtomicSet
