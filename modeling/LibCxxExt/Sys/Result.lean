import LibCxxExt.ProofKit.Exec
import Mathlib.Logic.Function.Basic

/-! `sys::result<T, Err>`, the primary template: a status byte and untyped storage, kept in step by
hand. A pool of results lives at addresses. What a result constructs in its storage is numbered, so
that the destructors that ran can be counted. Every construction may throw unless its type promises
otherwise, and `throws` decides which ones do. -/

namespace LibCxxExt.Sys.Result

open LibCxxExt.ProofKit

inductive Status where
  | ok
  | error
  | empty
  deriving DecidableEq, Repr

/-- What the templates ask of an object type: whether its move constructor is `noexcept`, and its
`sizeof`. -/
structure Payload where
  nothrowMove : Bool
  size : Nat
  deriving DecidableEq, Repr

/-- The kinds of types that `IResultStorable` admits. -/
inductive Kind where
  | object (p : Payload)
  | lvalueRef
  | void
  deriving DecidableEq, Repr

def Kind.isLvalue : Kind → Bool
  | .lvalueRef => true
  | _ => false

def Kind.isVoid : Kind → Bool
  | .void => true
  | _ => false

/-- `INothrowMoveConstructible<T>`. -/
def Kind.nothrowMove : Kind → Bool
  | .object p => p.nothrowMove
  | .lvalueRef => true
  | .void => false

/-- `sizeof(result_storage_type<T>)`: a reference is stored as a pointer, `void` as a byte. -/
def Kind.storageSize : Kind → Nat
  | .object p => p.size
  | .lvalueRef => 8
  | .void => 1

structure ResultType where
  T : Kind
  Err : Kind
  deriving DecidableEq, Repr

/-- The condition in the `noexcept` of the move constructor and of the move assignment. -/
def ResultType.nothrowMove (ty : ResultType) : Bool :=
  (ty.T.isLvalue || ty.T.nothrowMove || ty.T.isVoid) &&
    (ty.Err.isLvalue || ty.Err.nothrowMove || ty.Err.isVoid)

/-- What lives in the storage: an object with its number, or a pointer to a referent. -/
inductive Slot (V E : Type) where
  | value (id : Nat) (v : V)
  | error (id : Nat) (e : E)
  | valuePtr (v : V)
  | errorPtr (e : E)
  deriving DecidableEq, Repr

/-- A result: its status and its storage, with the template arguments it was declared with. -/
structure Object (V E : Type) where
  ty : ResultType
  status : Status
  storage : Option (Slot V E)
  deriving DecidableEq, Repr

def Object.toBool {V E : Type} (o : Object V E) : Bool := o.status = .ok

def Object.not {V E : Type} (o : Object V E) : Bool := o.status = .error

abbrev Addr := Nat

/-- The results of a program, the number of objects constructed in their storage so far, the log of
the destroyed ones, and the number of constructions attempted anywhere. -/
structure World (V E : Type) where
  objects : Addr → Option (Object V E)
  born : Nat
  died : List Nat
  attempts : Nat

/-- The program before its first result. -/
def World.init {V E : Type} : World V E where
  objects := fun _ => none
  born := 0
  died := []
  attempts := 0

/-- The constructions that can throw: `T ret = std::move(...)` and the return of `ret` in `move` and
`err`, `std::construct_at` in `ctor_ok` and in the two overloads of `ctor_err`, and the alternative
of `move_or`. -/
inductive Site where
  | takeValue
  | takeError
  | returnValue
  | returnError
  | putValue
  | putError
  | emplaceError
  | otherValue
  deriving DecidableEq, Repr

section

variable {V E : Type}

def object (a : Addr) : Exec (World V E) (Object V E) := do
  match (← Exec.get).objects a with
  | some o => return o
  | none => Exec.undefined

def store (a : Addr) (o : Option (Object V E)) : Exec (World V E) Unit :=
  Exec.modify fun w => { w with objects := Function.update w.objects a o }

def setStatus (a : Addr) (status : Status) : Exec (World V E) Unit := do
  store a (some { ← object a with status })

/-- Storage of a new result, with its members default initialised. -/
def allocate (a : Addr) (ty : ResultType) : Exec (World V E) Unit :=
  store a (some { ty, status := .empty, storage := none })

/-- The storage of the result goes away. No destructor runs. -/
def deallocate (a : Addr) : Exec (World V E) Unit :=
  store a none

def storePtr (a : Addr) (slot : Slot V E) : Exec (World V E) Unit := do
  store a (some { ← object a with storage := some slot })

/-- `*data<T>()`. The storage must hold a `T`. -/
def readValue (a : Addr) : Exec (World V E) V := do
  match (← object a).storage with
  | some (.value _ v) => return v
  | _ => Exec.undefined

/-- `*data<Err>()`. The storage must hold an `Err`. -/
def readError (a : Addr) : Exec (World V E) E := do
  match (← object a).storage with
  | some (.error _ e) => return e
  | _ => Exec.undefined

def readValuePtr (a : Addr) : Exec (World V E) V := do
  match (← object a).storage with
  | some (.valuePtr v) => return v
  | _ => Exec.undefined

def readErrorPtr (a : Addr) : Exec (World V E) E := do
  match (← object a).storage with
  | some (.errorPtr e) => return e
  | _ => Exec.undefined

/-- A destructor ran on object `id`, which was all the storage of `a` held. -/
def bury (a : Addr) (id : Nat) : Exec (World V E) Unit := do
  store a (some { ← object a with storage := none })
  Exec.modify fun w => { w with died := id :: w.died }

def destroyValue (a : Addr) : Exec (World V E) Unit := do
  match (← object a).storage with
  | some (.value id _) => bury a id
  | _ => Exec.undefined

def destroyError (a : Addr) : Exec (World V E) Unit := do
  match (← object a).storage with
  | some (.error id _) => bury a id
  | _ => Exec.undefined

def contractAssert (a : Addr) (expected : Status) : Exec (World V E) Unit := do
  if (← object a).status = expected then return () else Exec.throwing

end

section

variable {V E : Type} (throws : Site → Nat → Bool)

/-- A construction, `noexcept` or not. -/
def attempt (site : Site) (nothrow : Bool) : Exec (World V E) Unit := do
  let w ← Exec.get
  Exec.modify fun w => { w with attempts := w.attempts + 1 }
  if !nothrow && throws site w.attempts then Exec.throwing

/-- `std::construct_at` on the storage of `a`. -/
def constructAt (site : Site) (nothrow : Bool) (a : Addr) (slot : Nat → Slot V E) :
    Exec (World V E) Unit := do
  attempt throws site nothrow
  let id := (← Exec.get).born
  storePtr a (slot id)
  Exec.modify fun w => { w with born := w.born + 1 }

/-- `ctor_ok(auto&&)`. The overload for several arguments is the same where `T` is an object type,
and takes no other. `nothrow` is `INothrowConstructibleFrom<T, decltype(val)>`. -/
def ctorOk (ty : ResultType) (this : Addr) (val : V) (nothrow : Bool) : Exec (World V E) Unit :=
  Exec.noexceptIf (ty.T.isLvalue || nothrow) do
    match ty.T with
    | .lvalueRef => storePtr this (.valuePtr val)
    | .object _ => constructAt throws .putValue nothrow this (.value · val)
    | .void => Exec.undefined
    setStatus this .ok

/-- `ctor_err(auto&&)`. Its condition asks whether evaluating the concept `IConstructibleFrom` may
throw, not whether the construction may: it always holds. -/
def ctorErr (ty : ResultType) (this : Addr) (val : E) (nothrow : Bool) : Exec (World V E) Unit :=
  Exec.noexceptIf (ty.Err.isLvalue || true) do
    match ty.Err with
    | .lvalueRef => storePtr this (.errorPtr val)
    | .object _ => constructAt throws .putError nothrow this (.error · val)
    | .void => Exec.undefined
    setStatus this .error

/-- `ctor_err(auto&&...)`, the overload for any other number of arguments than one. -/
def ctorErrInplace (ty : ResultType) (this : Addr) (val : E) (nothrow : Bool) :
    Exec (World V E) Unit :=
  Exec.noexceptIf nothrow do
    match ty.Err with
    | .object _ => constructAt throws .emplaceError nothrow this (.error · val)
    | _ => Exec.undefined
    setStatus this .error

/-- `move(unsafe)`. The return of `ret` constructs once more where the compiler does not elide it.
-/
def moveUnsafe (ty : ResultType) (this : Addr) : Exec (World V E) V :=
  Exec.noexceptIf (ty.T.isLvalue || ty.T.nothrowMove) do
    match ty.T with
    | .lvalueRef =>
      let ret ← readValuePtr this
      setStatus this .empty
      return ret
    | .object p =>
      let ret ← readValue this
      attempt throws .takeValue p.nothrowMove
      setStatus this .empty
      destroyValue this
      attempt throws .returnValue p.nothrowMove
      return ret
    | .void => Exec.undefined

def errUnsafe (ty : ResultType) (this : Addr) : Exec (World V E) E :=
  Exec.noexceptIf (ty.Err.isLvalue || ty.Err.nothrowMove) do
    match ty.Err with
    | .lvalueRef =>
      let ret ← readErrorPtr this
      setStatus this .empty
      return ret
    | .object p =>
      let ret ← readError this
      attempt throws .takeError p.nothrowMove
      setStatus this .empty
      destroyError this
      attempt throws .returnError p.nothrowMove
      return ret
    | .void => Exec.undefined

/-- The constructors from a value: `result(auto&& val)` and `result(auto&&... args)`. -/
def valueResult (ty : ResultType) (this : Addr) (val : V) (nothrow : Bool) :
    Exec (World V E) Unit :=
  Exec.noexceptIf (ty.T.isLvalue || nothrow) do
    allocate this ty
    Exec.onThrow (ctorOk throws ty this val nothrow) (deallocate this)

/-- The constructors from an error. They all come down to `result(error_tag, args...)`, where
overload resolution prefers the overload of `ctor_err` for a single argument. -/
def errorResult (ty : ResultType) (this : Addr) (val : E) (nothrow single : Bool) :
    Exec (World V E) Unit :=
  Exec.noexceptIf (ty.Err.isLvalue || nothrow) do
    allocate this ty
    Exec.onThrow
      (if single then ctorErr throws ty this val nothrow
        else ctorErrInplace throws ty this val nothrow)
      (deallocate this)

/-- `switch (other.status)`, which the move constructor and the move assignment end with. -/
def takeFrom (ty : ResultType) (this other : Addr) : Exec (World V E) Unit := do
  match (← object (V := V) (E := E) other).status with
  | .ok =>
    if ty.T.isVoid then
      setStatus this .ok
      setStatus other .empty
    else
      ctorOk throws ty this (← moveUnsafe throws ty other) ty.T.nothrowMove
  | .error =>
    if ty.Err.isVoid then
      setStatus this .error
      setStatus other .empty
    else
      ctorErr throws ty this (← errUnsafe throws ty other) ty.Err.nothrowMove
  | .empty => setStatus other .empty

def moveResult (ty : ResultType) (this other : Addr) : Exec (World V E) Unit :=
  Exec.noexceptIf ty.nothrowMove do
    allocate this ty
    Exec.onThrow (takeFrom throws ty this other) (deallocate this)

/-- `switch (this->status)`, which the destructor and the move assignment begin with. -/
def destroyPayload (ty : ResultType) (this : Addr) : Exec (World V E) Unit := do
  match (← object (V := V) (E := E) this).status with
  | .ok => if !ty.T.isLvalue && !ty.T.isVoid then destroyValue this
  | .error => if !ty.Err.isLvalue && !ty.Err.isVoid then destroyError this
  | .empty => return ()

def destroy (ty : ResultType) (this : Addr) : Exec (World V E) Unit :=
  Exec.noexceptIf true do
    destroyPayload ty this
    deallocate this

def assign (ty : ResultType) (this other : Addr) : Exec (World V E) Unit :=
  Exec.noexceptIf ty.nothrowMove do
    if this = other then
      return ()
    destroyPayload ty this
    setStatus this .empty
    takeFrom throws ty this other

/-- `operator result<T, void>() &&`, with the result constructed at `ret`. -/
def toVoidErr (ty : ResultType) (this ret : Addr) : Exec (World V E) Unit :=
  Exec.noexceptIf (ty.T.isVoid || ty.T.isLvalue || ty.T.nothrowMove) do
    match (← object (V := V) (E := E) this).status with
    | .ok =>
      if ty.T.isVoid then
        allocate ret ⟨ty.T, .void⟩
        setStatus ret .ok
      else
        valueResult throws ⟨ty.T, .void⟩ ret (← moveUnsafe throws ty this) ty.T.nothrowMove
    | .error =>
      allocate ret ⟨ty.T, .void⟩
      setStatus ret .error
    | .empty => allocate ret ⟨ty.T, .void⟩

def move (ty : ResultType) (this : Addr) : Exec (World V E) V := do
  contractAssert this .ok
  moveUnsafe throws ty this

/-- `move_or(inplace_other...)`. `nothrow` is `INothrowConstructibleFrom<T,
decltype(inplace_other)...>`. -/
def moveOr (ty : ResultType) (this : Addr) (other : V) (nothrow : Bool) : Exec (World V E) V :=
  Exec.noexceptIf (ty.T.isLvalue || (ty.T.nothrowMove && nothrow)) do
    if (← object (V := V) (E := E) this).status ≠ .ok then
      attempt throws .otherValue (ty.T.isLvalue || nothrow)
      return other
    moveUnsafe throws ty this

def expect (ty : ResultType) (this : Addr) : Exec (World V E) (Option V) := do
  contractAssert this .ok
  if ty.T.isVoid then
    setStatus this .empty
    return none
  else
    return some (← moveUnsafe throws ty this)

def err (ty : ResultType) (this : Addr) : Exec (World V E) E := do
  contractAssert this .error
  errUnsafe throws ty this

def expectErr (ty : ResultType) (this : Addr) : Exec (World V E) (Option E) := do
  contractAssert this .error
  if ty.Err.isVoid then
    setStatus this .empty
    return none
  else
    return some (← errUnsafe throws ty this)

/-- The test by which `swap` decides which of its arguments to move to `tmp`. -/
def movesSecondFirst (ty : ResultType) (b : Status) : Bool :=
  b = .ok && ty.T.storageSize < ty.Err.storageSize ||
    b = .error && ty.Err.storageSize ≤ ty.T.storageSize || b = .empty

/-- `swap(a, b)`, with the local `tmp` at an address of its own. -/
def swap (ty : ResultType) (a b tmp : Addr) : Exec (World V E) Unit :=
  Exec.noexceptIf
      ((ty.T.isLvalue || ty.T.nothrowMove) && (ty.Err.isLvalue || ty.Err.nothrowMove)) do
    if movesSecondFirst ty (← object (V := V) (E := E) b).status then
      moveResult throws ty tmp b
      Exec.atExit (do assign throws ty b a; assign throws ty a tmp) (destroy ty tmp)
    else
      moveResult throws ty tmp a
      Exec.atExit (do assign throws ty a b; assign throws ty b tmp) (destroy ty tmp)

end

end LibCxxExt.Sys.Result
