import Mathlib.Logic.Basic

/-! Programs with exceptions over a state, and their triples. A program ends in one of four ways: it
returns, it throws, it is terminated because an exception left a function that promised none, or its
behaviour is undefined. The state survives a throw, so that a caller sees what was done before it.
Nothing here names the repository. -/

namespace LibCxxExt.ProofKit

inductive Outcome (α : Type) where
  | ok (a : α)
  | threw
  | terminated
  | undefined
  deriving DecidableEq, Repr

/-- A program over the states `σ` that returns an `α`. -/
def Exec (σ α : Type) := σ → Outcome α × σ

namespace Exec

variable {σ α β : Type}

instance : Monad (Exec σ) where
  pure a := fun s => (.ok a, s)
  bind m f := fun s =>
    match m s with
    | (.ok a, s') => f a s'
    | (.threw, s') => (.threw, s')
    | (.terminated, s') => (.terminated, s')
    | (.undefined, s') => (.undefined, s')

def get : Exec σ σ := fun s => (.ok s, s)

def modify (f : σ → σ) : Exec σ Unit := fun s => (.ok (), f s)

def throwing : Exec σ α := fun s => (.threw, s)

def undefined : Exec σ α := fun s => (.undefined, s)

/-- `noexcept(promise)` around `m`: an exception that leaves `m` terminates the program when the
promise is given. -/
def noexceptIf (promise : Bool) (m : Exec σ α) : Exec σ α := fun s =>
  match m s with
  | (.threw, s') => (if promise then .terminated else .threw, s')
  | r => r

/-- `m`, with `cleanup` run when an exception leaves it. No exception may leave the cleanup. -/
def onThrow (m : Exec σ α) (cleanup : Exec σ Unit) : Exec σ α := fun s =>
  match m s with
  | (.threw, s') => (do noexceptIf true cleanup; throwing) s'
  | r => r

/-- `m`, with `cleanup` run when it ends, by returning or by an exception. -/
def atExit (m : Exec σ α) (cleanup : Exec σ Unit) : Exec σ α := do
  let a ← onThrow m cleanup
  cleanup
  return a

@[simp] theorem pure_run (a : α) (s : σ) : (pure a : Exec σ α) s = (.ok a, s) := rfl

theorem bind_run (m : Exec σ α) (f : α → Exec σ β) (s : σ) :
    (m >>= f) s = match m s with
      | (.ok a, s') => f a s'
      | (.threw, s') => (.threw, s')
      | (.terminated, s') => (.terminated, s')
      | (.undefined, s') => (.undefined, s') := rfl

/-- `m'` does what `m` does, unless `m` is terminated. -/
def Follows (m' m : Exec σ α) : Prop := ∀ s, m' s = m s ∨ (m s).1 = .terminated

namespace Follows

variable {m' m : Exec σ α}

theorem refl (m : Exec σ α) : Follows m m := fun _ => .inl rfl

theorem bind {f' f : α → Exec σ β} (hm : Follows m' m) (hf : ∀ a, Follows (f' a) (f a)) :
    Follows (m' >>= f') (m >>= f) := by
  intro s
  rw [bind_run, bind_run]
  rcases hm s with same | stopped
  · rw [same]
    rcases m s with ⟨out, s'⟩
    cases out with
    | ok a => exact hf a s'
    | threw | terminated | undefined => exact .inl rfl
  · rcases h : m s with ⟨out, s'⟩
    rw [h] at stopped
    obtain rfl : out = .terminated := stopped
    exact .inr rfl

theorem noexceptIf (promise : Bool) (hm : Follows m' m) :
    Follows (Exec.noexceptIf promise m') (Exec.noexceptIf promise m) := by
  intro s
  simp only [Exec.noexceptIf]
  rcases hm s with same | stopped
  · exact .inl (by rw [same])
  · rcases h : m s with ⟨out, s'⟩
    rw [h] at stopped
    obtain rfl : out = .terminated := stopped
    exact .inr rfl

theorem onThrow (cleanup : Exec σ Unit) (hm : Follows m' m) :
    Follows (Exec.onThrow m' cleanup) (Exec.onThrow m cleanup) := by
  intro s
  simp only [Exec.onThrow]
  rcases hm s with same | stopped
  · exact .inl (by rw [same])
  · rcases h : m s with ⟨out, s'⟩
    rw [h] at stopped
    obtain rfl : out = .terminated := stopped
    exact .inr rfl

theorem atExit (cleanup : Exec σ Unit) (hm : Follows m' m) :
    Follows (Exec.atExit m' cleanup) (Exec.atExit m cleanup) :=
  bind (onThrow cleanup hm) fun _ => refl _

end Follows

end Exec

/-- What a triple asks of an ending: `Q` of a return, `E` of a throw, the licence `abort` of a
termination, and that nothing undefined happened. -/
def Ends {σ α : Type} (abort : Prop) (Q : α → σ → Prop) (E : σ → Prop) : Outcome α × σ → Prop
  | (.ok a, s) => Q a s
  | (.threw, s) => E s
  | (.terminated, _) => abort
  | (.undefined, _) => False

/-- From every state in `P` the program `m` returns in `Q` or throws in `E`. It is terminated only
where `abort` allows it, and its behaviour is never undefined. -/
def Triple {σ α : Type} (abort : Prop) (P : σ → Prop) (m : Exec σ α) (Q : α → σ → Prop)
    (E : σ → Prop) : Prop :=
  ∀ s, P s → Ends abort Q E (m s)

namespace Triple

variable {σ α β : Type} {abort : Prop} {P P' : σ → Prop} {E E' : σ → Prop}

theorem weaken {m : Exec σ α} {Q Q' : α → σ → Prop} (h : Triple abort P m Q E)
    (hQ : ∀ a s, Q a s → Q' a s) (hE : ∀ s, E s → E' s) : Triple abort P m Q' E' := by
  intro s hs
  have ended := h s hs
  rcases hm : m s with ⟨out, s'⟩
  rw [hm] at ended
  cases out with
  | ok a => exact hQ a s' ended
  | threw => exact hE s' ended
  | terminated => exact ended
  | undefined => exact ended

theorem post {m : Exec σ α} {Q Q' : α → σ → Prop} (h : Triple abort P m Q E)
    (hQ : ∀ a s, Q a s → Q' a s) : Triple abort P m Q' E :=
  weaken h hQ fun _ h => h

theorem thrown {m : Exec σ α} {Q : α → σ → Prop} (h : Triple abort P m Q E)
    (hE : ∀ s, E s → E' s) : Triple abort P m Q E' :=
  weaken h (fun _ _ h => h) hE

theorem pure {Q : α → σ → Prop} {a : α} (h : ∀ s, P s → Q a s) :
    Triple abort P (pure a) Q E :=
  fun s hs => h s hs

theorem bind {m : Exec σ α} {f : α → Exec σ β} {R : α → σ → Prop} {Q : β → σ → Prop}
    (hm : Triple abort P m R E) (hf : ∀ a, Triple abort (R a) (f a) Q E) :
    Triple abort P (m >>= f) Q E := by
  intro s hs
  have ended := hm s hs
  rw [Exec.bind_run]
  rcases h : m s with ⟨out, s'⟩
  rw [h] at ended
  cases out with
  | ok a => exact hf a s' ended
  | threw => exact ended
  | terminated => exact ended
  | undefined => exact ended

theorem throwing {Q : α → σ → Prop} (h : ∀ s, P s → E s) :
    Triple abort P (Exec.throwing : Exec σ α) Q E :=
  fun s hs => h s hs

theorem of_and {m : Exec σ α} {Q : α → σ → Prop} {φ : Prop} (h : φ → Triple abort P m Q E) :
    Triple abort (fun s => φ ∧ P s) m Q E :=
  fun s hs => h hs.1 s hs.2

theorem of_exists {ι : Type} {m : Exec σ α} {Q : α → σ → Prop} {R : ι → σ → Prop}
    (h : ∀ x, Triple abort (R x) m Q E) : Triple abort (fun s => ∃ x, R x s) m Q E :=
  fun s ⟨x, hs⟩ => h x s hs

theorem of_or {m : Exec σ α} {Q : α → σ → Prop} (h : Triple abort P m Q E)
    (h' : Triple abort P' m Q E) : Triple abort (fun s => P s ∨ P' s) m Q E :=
  fun s hs => hs.elim (h s) (h' s)

/-- A promise that the exceptions of `m` cannot break changes nothing. -/
theorem noexceptIf {m : Exec σ α} {Q : α → σ → Prop} {promise : Bool} (h : Triple abort P m Q E)
    (kept : promise = true → ∀ s, ¬ E s) : Triple abort P (Exec.noexceptIf promise m) Q E := by
  intro s hs
  have ended := h s hs
  rw [Exec.noexceptIf]
  rcases hm : m s with ⟨out, s'⟩
  rw [hm] at ended
  cases out with
  | ok a => exact ended
  | threw =>
    cases promise with
    | false => exact ended
    | true => exact absurd ended (kept rfl s')
  | terminated => exact ended
  | undefined => exact ended

theorem noexcept {m : Exec σ α} {Q : α → σ → Prop} (h : Triple abort P m Q E)
    (licence : ∀ s, E s → abort) : Triple abort P (Exec.noexceptIf true m) Q E' := by
  intro s hs
  have ended := h s hs
  rw [Exec.noexceptIf]
  rcases hm : m s with ⟨out, s'⟩
  rw [hm] at ended
  cases out with
  | ok a => exact ended
  | threw => exact licence s' ended
  | terminated => exact ended
  | undefined => exact ended

theorem onThrow {m : Exec σ α} {cleanup : Exec σ Unit} {Q : α → σ → Prop} {M : σ → Prop}
    (hm : Triple abort P m Q M)
    (hc : Triple abort M cleanup (fun _ => E) (fun _ => False)) :
    Triple abort P (Exec.onThrow m cleanup) Q E := by
  intro s hs
  have ended := hm s hs
  rw [Exec.onThrow]
  rcases h : m s with ⟨out, s'⟩
  rw [h] at ended
  cases out with
  | ok a => exact ended
  | threw =>
    have unwound : Triple abort M (do Exec.noexceptIf true cleanup; Exec.throwing) Q E := by
      refine bind (thrown (noexceptIf hc fun _ _ no => no) ?_) fun _ => throwing fun _ h => h
      exact fun _ no => no.elim
    exact unwound s' ended
  | terminated => exact ended
  | undefined => exact ended

theorem atExit {m : Exec σ α} {cleanup : Exec σ Unit} {Q R : α → σ → Prop} {M : σ → Prop}
    (hm : Triple abort P m R M)
    (hok : ∀ a, Triple abort (R a) cleanup (fun _ => Q a) (fun _ => False))
    (hthrew : Triple abort M cleanup (fun _ => E) (fun _ => False)) :
    Triple abort P (Exec.atExit m cleanup) Q E :=
  bind (onThrow hm hthrew) fun a =>
    bind (thrown (hok a) (fun _ no => no.elim)) fun _ =>
      pure fun _ h => h

end Triple

end LibCxxExt.ProofKit
