import LibCxxExt.ProofKit.Interleaving

/-! The project lockfile (`lockfile.py`) on a POSIX system. A process opens the file of a name,
creating it if it is not there, and locks what it opened without waiting. On release it unlocks and
closes the file and removes the path. The path is bound to an inode, and a lock is on the inode. -/

namespace LibCxxExt.Workflows.Lockfile

open LibCxxExt.ProofKit

/-- An open file: the process that opened it, a number of its own and the inode it refers to. -/
structure File (Tid : Type) where
  owner : Tid
  serial : Nat
  inode : Nat
  deriving DecidableEq

/-- The inode that the path names, the file that holds the lock of each inode, and the numbers of
inodes and open files so far. -/
structure Shared (Tid : Type) where
  path : Option Nat
  lock : Nat → Option (File Tid)
  inodes : Nat
  opened : Nat

/-- Where a process stands, before the step of that name. -/
inductive Place (Tid : Type)
  | idle
  | openPath
  | tryLock (f : File Tid)
  | refused (f : File Tid)
  | store (f : File Tid)
  | unlock (f : File Tid)
  | close (f : File Tid)
  | remove
  deriving DecidableEq

/-- A process, with its entry for the name in the dictionary `held`. -/
structure Proc (Tid : Type) where
  held : Option (File Tid)
  place : Place Tid
  deriving DecidableEq

inductive Event
  | acquire
  | openPath
  | lock (granted : Bool)
  | close
  | store
  | release
  | unlock
  | remove
  | raise
  deriving DecidableEq

variable {Tid : Type} [DecidableEq Tid]

/-- The locks after the last reference to an open file is gone. -/
def dropFile (lock : Nat → Option (File Tid)) (f : File Tid) : Nat → Option (File Tid) :=
  if lock f.inode = some f then Function.update lock f.inode none else lock

/-- One atomic step of process `t` in `lockfile_acq` or `lockfile_rel`. Every operation on the file
may raise. -/
inductive CallStep (t : Tid) : Shared Tid → Proc Tid → Event → Shared Tid → Proc Tid → Prop
  | acquire {s h} : CallStep t s ⟨h, .idle⟩ .acquire s ⟨h, .openPath⟩
  | openExisting {s h i} : s.path = some i → CallStep t s ⟨h, .openPath⟩ .openPath
      { s with opened := s.opened + 1 } ⟨h, .tryLock ⟨t, s.opened, i⟩⟩
  | create {s h} : s.path = none → CallStep t s ⟨h, .openPath⟩ .openPath
      { s with path := some s.inodes, inodes := s.inodes + 1, opened := s.opened + 1 }
      ⟨h, .tryLock ⟨t, s.opened, s.inodes⟩⟩
  | openRaises {s h} : CallStep t s ⟨h, .openPath⟩ .raise s ⟨h, .idle⟩
  | granted {s h f} : s.lock f.inode = none → CallStep t s ⟨h, .tryLock f⟩ (.lock true)
      { s with lock := Function.update s.lock f.inode (some f) } ⟨h, .store f⟩
  | refused {s h f} : s.lock f.inode ≠ none →
    CallStep t s ⟨h, .tryLock f⟩ (.lock false) s ⟨h, .refused f⟩
  | lockRaises {s h f} : CallStep t s ⟨h, .tryLock f⟩ .raise s ⟨h, .idle⟩
  | retry {s h f} : CallStep t s ⟨h, .refused f⟩ .close s ⟨h, .openPath⟩
  | timeout {s h f} : CallStep t s ⟨h, .refused f⟩ .raise s ⟨h, .idle⟩
  -- The process id is written, the file goes into `held` and whatever was there is closed.
  | store {s h f} : CallStep t s ⟨h, .store f⟩ .store
      { s with lock := h.elim s.lock (dropFile s.lock) } ⟨some f, .idle⟩
  | writeRaises {s h f} : CallStep t s ⟨h, .store f⟩ .raise
      { s with lock := dropFile s.lock f } ⟨h, .idle⟩
  | release {s f} : CallStep t s ⟨some f, .idle⟩ .release s ⟨none, .unlock f⟩
  | releaseNothing {s} : CallStep t s ⟨none, .idle⟩ .release s ⟨none, .idle⟩
  | unlock {s h f} : CallStep t s ⟨h, .unlock f⟩ .unlock
      { s with lock := dropFile s.lock f } ⟨h, .close f⟩
  | unlockRaises {s h f} : CallStep t s ⟨h, .unlock f⟩ .raise
      { s with lock := dropFile s.lock f } ⟨h, .idle⟩
  | close {s h f} : CallStep t s ⟨h, .close f⟩ .close
      { s with lock := dropFile s.lock f } ⟨h, .remove⟩
  | remove {s h} : CallStep t s ⟨h, .remove⟩ .remove { s with path := none } ⟨h, .idle⟩
  -- An `OSError` of `os.remove` is ignored.
  | removeFails {s h} : CallStep t s ⟨h, .remove⟩ .raise s ⟨h, .idle⟩

/-- Processes that acquire and release the lock of one name. -/
def program (Tid : Type) [DecidableEq Tid] : Program Tid (Shared Tid) (Proc Tid) Event where
  shared := ⟨none, fun _ => none, 0, 0⟩
  start := ⟨none, .idle⟩
  step := CallStep

/-- The process returned from `lockfile_acq` and has not started `lockfile_rel`. -/
def Holds (p : Proc Tid) : Prop := p.held.isSome = true

/-- The process holds the lock of `f`, or `lockfile_acq` is about to return with it. -/
def Guards (p : Proc Tid) (f : File Tid) : Prop := p.held = some f ∨ p.place = .store f

/-- A lock is only granted on the inode that the path still names, and the path is only removed
while nobody holds the lock of the inode it names. -/
def Careful (s : ThreadState Tid (Shared Tid) (Proc Tid)) : Tid × Event → Prop
  | (t, .lock true) => ∀ f, (s.pc t).place = .tryLock f → s.shared.path = some f.inode
  | (_, .remove) => ∀ u f, Guards (s.pc u) f → s.shared.path ≠ some f.inode
  | _ => True

/-! ### Exclusion -/

def Place.file : Place Tid → Option (File Tid)
  | .tryLock f | .refused f | .store f | .unlock f | .close f => some f
  | _ => none

/-- What is known of a process. Whoever guards a file has locked it, and the path names it. A
process that is about to store a file, or is releasing one, holds none. -/
structure Sound (s : Shared Tid) (t : Tid) (p : Proc Tid) : Prop where
  owner : ∀ f, p.held = some f ∨ p.place.file = some f → f.owner = t
  guarded : ∀ f, Guards p f → s.lock f.inode = some f ∧ s.path = some f.inode
  alone : ∀ f, p.place = .store f ∨ p.place = .unlock f ∨ p.place = .close f → p.held = none

theorem dropFile_of_ne {lock : Nat → Option (File Tid)} {f g : File Tid} (other : f ≠ g)
    (locked : lock g.inode = some g) : dropFile lock f g.inode = some g := by
  unfold dropFile
  split
  · next held =>
    have apart : g.inode ≠ f.inode := by
      intro same
      rw [same, held] at locked
      exact other (Option.some.inj locked)
    rwa [Function.update_of_ne apart]
  · exact locked

section Steps

variable {t u : Tid} {s s' : Shared Tid} {p p' q : Proc Tid} {e : Event}

/-- A file that another process guards stays locked, and named by the path. -/
theorem CallStep.frame (moved : CallStep t s p e s' p') (mine : Sound s t p)
    (theirs : Sound s u q) (other : u ≠ t)
    (locks : ∀ f, e = .lock true → p.place = .tryLock f → s.path = some f.inode)
    (removes : e = .remove → ∀ f, Guards q f → s.path ≠ some f.inode) : Sound s' u q := by
  refine ⟨theirs.owner, fun g guards => ?_, theirs.alone⟩
  obtain ⟨locked, named⟩ := theirs.guarded g guards
  have apart (f : File Tid) (own : p.held = some f ∨ p.place.file = some f) : f ≠ g := by
    rintro rfl
    have owner := theirs.owner f (guards.imp_right fun at_ => by rw [at_]; rfl)
    exact other (owner.symm.trans (mine.owner f own))
  cases moved with
  | create unbound =>
    rw [unbound] at named
    exact absurd named nofun
  | @granted h f free =>
    have inode : f.inode = g.inode := by
      have path := locks f rfl rfl
      rw [named] at path
      exact (Option.some.inj path).symm
    rw [inode, locked] at free
    exact absurd free nofun
  | @store h f =>
    cases h with
    | none => exact ⟨locked, named⟩
    | some old => exact ⟨dropFile_of_ne (apart old (.inl rfl)) locked, named⟩
  | @writeRaises h f | @unlock h f | @unlockRaises h f | @close h f =>
    exact ⟨dropFile_of_ne (apart f (.inr rfl)) locked, named⟩
  | remove => exact absurd named (removes rfl g guards)
  | _ => exact ⟨locked, named⟩

omit [DecidableEq Tid] in
theorem Sound.held_eq_none {h : Option (File Tid)} {place : Place Tid}
    (sound : Sound s t ⟨h, place⟩)
    (unguarded : ∀ f, h = some f → s.lock f.inode = some f → s.path ≠ some f.inode) :
    h = none := by
  cases h with
  | none => rfl
  | some f =>
    obtain ⟨locked, named⟩ := sound.guarded f (.inl rfl)
    exact absurd named (unguarded f rfl locked)

theorem CallStep.sound (moved : CallStep t s p e s' p') (mine : Sound s t p)
    (locks : ∀ f, e = .lock true → p.place = .tryLock f → s.path = some f.inode)
    (removes : e = .remove → ∀ f, Guards p f → s.path ≠ some f.inode) : Sound s' t p' := by
  have guarded := mine.guarded
  have alone := mine.alone
  have owner := mine.owner
  cases moved with
  | create unbound =>
    obtain rfl := mine.held_eq_none fun f _ _ => by simp [unbound]
    exact ⟨by simp [Place.file], by simp [Guards], by simp⟩
  | @granted h f free =>
    have path := locks f rfl rfl
    obtain rfl := mine.held_eq_none fun g _ locked named => by
      rw [path] at named
      simp [← Option.some.inj named, free] at locked
    refine ⟨owner, fun g guards => ?_, fun _ _ => rfl⟩
    obtain rfl : f = g := by simpa [Guards] using guards
    exact ⟨Function.update_self .., path⟩
  | remove =>
    obtain rfl := mine.held_eq_none fun f held _ => removes rfl f (.inl held)
    exact ⟨by simp [Place.file], by simp [Guards], by simp⟩
  | @store h f =>
    obtain rfl : h = none := alone f (.inl rfl)
    constructor
    · intro g held
      apply owner g
      simpa [Place.file] using held
    · intro g guards
      apply guarded g
      simpa [Guards] using guards
    · simp
  | @openExisting h i named =>
    constructor
    · rintro f (held | file)
      · exact owner f (.inl held)
      · obtain rfl := Option.some.inj file
        rfl
    · intro f guards
      exact guarded f (guards.imp_right nofun)
    · simp
  | @release f =>
    constructor
    · rintro g (held | file)
      · exact absurd held nofun
      · exact owner g (.inl file)
    · simp [Guards]
    · exact fun _ _ => rfl
  | @unlock h f =>
    obtain rfl : h = none := alone f (by simp)
    exact ⟨owner, fun g => by simp [Guards], fun _ _ => rfl⟩
  | @writeRaises h f | @unlockRaises h f | @close h f =>
    obtain rfl : h = none := alone f (by simp)
    exact ⟨fun g => by simp [Place.file], fun g => by simp [Guards], fun _ _ => rfl⟩
  | refused => exact ⟨owner, fun g guards => guarded g (guards.imp_right nofun), by simp⟩
  | releaseNothing => exact mine
  | _ =>
    exact ⟨fun f => by simpa [Place.file] using fun held => owner f (.inl held),
      fun f => by simpa [Guards] using fun held => guarded f (.inl held), by simp⟩

end Steps

theorem careful_sound {es : List (Tid × Event)} {s : ThreadState Tid (Shared Tid) (Proc Tid)}
    (run : (program Tid).RunWhere Careful es s) (t : Tid) : Sound s.shared t (s.pc t) := by
  revert t
  refine run.invariant (I := fun s => ∀ t, Sound s.shared t (s.pc t)) ?_ ?_
  · exact fun t => ⟨by simp [program, Place.file], by simp [program, Guards], by simp [program]⟩
  · intro s t e shared p sound met moved
    have locks (f : File Tid) (granted : e = .lock true) (at_ : (s.pc t).place = .tryLock f) :
        s.shared.path = some f.inode := by
      subst granted
      exact met f at_
    have removes (u : Tid) (removing : e = .remove) (f : File Tid) (guards : Guards (s.pc u) f) :
        s.shared.path ≠ some f.inode := by
      subst removing
      exact met u f guards
    exact (Function.forall_update_iff s.pc (Sound shared)).mpr
      ⟨moved.sound (sound t) locks (removes t),
        fun u other => moved.frame (sound t) (sound u) other locks (removes u)⟩

/-- As long as every lock is granted on the inode that the path names, and the path is only removed
while nobody holds the lock of that inode, no two processes hold the lock of the name. -/
theorem exclusive_of_careful {es : List (Tid × Event)}
    {s : ThreadState Tid (Shared Tid) (Proc Tid)} (run : (program Tid).RunWhere Careful es s) :
    AtMostOne Holds s.pc := by
  intro t u mine theirs
  obtain ⟨f, holds⟩ := Option.isSome_iff_exists.mp mine
  obtain ⟨g, holds'⟩ := Option.isSome_iff_exists.mp theirs
  obtain ⟨locked, named⟩ := (careful_sound run t).guarded f (.inl holds)
  obtain ⟨locked', named'⟩ := (careful_sound run u).guarded g (.inl holds')
  have inode : f.inode = g.inode := Option.some.inj (named.symm.trans named')
  have same : f = g := Option.some.inj (locked.symm.trans (inode ▸ locked'))
  rw [← (careful_sound run t).owner f (.inl holds), same,
    (careful_sound run u).owner g (.inl holds')]

/-- The second process opens the file that the first has locked. -/
theorem exclusive_of_careful_refused : ∃ es s, (program (Fin 2)).RunWhere Careful es s ∧
    Holds (s.pc 0) ∧ (s.pc 1).place = .refused ⟨1, 1, 0⟩ ∧ AtMostOne Holds s.pc := by
  have fresh := Program.RunWhere.start (P := program (Fin 2)) (C := Careful)
  have called := fresh.step (e := (0, Event.acquire)) trivial (.thread .acquire)
  have opened := called.step (e := (0, Event.openPath)) trivial (.thread (.create rfl))
  have locked := opened.step (e := (0, Event.lock true)) (by rintro f ⟨⟩; rfl)
    (.thread (.granted rfl))
  have stored := locked.step (e := (0, Event.store)) trivial (.thread .store)
  have called := stored.step (e := (1, Event.acquire)) trivial (.thread .acquire)
  have opened := called.step (e := (1, Event.openPath)) trivial (.thread (.openExisting rfl))
  have refused := opened.step (e := (1, Event.lock false)) trivial (.thread (.refused nofun))
  exact ⟨_, _, refused, rfl, rfl, exclusive_of_careful refused⟩

/-- The second process opens the file while the first holds its lock, and locks it once the first
has let go. The first then removes the path, and the third process creates and locks a new file. -/
theorem not_exclusive : ¬ ∀ es s, (program (Fin 3)).Run es s → AtMostOne Holds s.pc := by
  intro exclusive
  have fresh := Program.Run.start (P := program (Fin 3))
  have called := fresh.step (.thread (t := 0) .acquire)
  have opened := called.step (.thread (t := 0) (.create rfl))
  have locked := opened.step (.thread (t := 0) (.granted rfl))
  have stored := locked.step (.thread (t := 0) .store)
  have called := stored.step (.thread (t := 1) .acquire)
  have opened := called.step (.thread (t := 1) (.openExisting rfl))
  have released := opened.step (.thread (t := 0) .release)
  have unlocked := released.step (.thread (t := 0) .unlock)
  have locked := unlocked.step (.thread (t := 1) (.granted rfl))
  have closed := locked.step (.thread (t := 0) .close)
  have removed := closed.step (.thread (t := 0) .remove)
  have stored := removed.step (.thread (t := 1) .store)
  have called := stored.step (.thread (t := 2) .acquire)
  have opened := called.step (.thread (t := 2) (.create rfl))
  have locked := opened.step (.thread (t := 2) (.granted rfl))
  have stored := locked.step (.thread (t := 2) .store)
  have same := exclusive _ _ stored 1 2 rfl rfl
  exact absurd same (by decide)

end LibCxxExt.Workflows.Lockfile
