import LibCxxExt.Sys.Result

/-! The two templates that stand in for the primary one: `result<void, void>`, a bare status, and
`result<T*, void>`, a `nullable_value_result` whose null value means that there is none. Both are
assigned by swapping. A function gives back the objects it was called on after its return value, and
`none` where it throws because its contract is violated. -/

namespace LibCxxExt.Sys.Result

/-- The operations that consume a result. -/
inductive Consumption where
  | moveResult
  | assign
  | move
  | expect
  | expectErr
  deriving DecidableEq, Repr

namespace VoidResult

/-- `result(result&& other)`: the new result and `other`. -/
def moveResult (other : Status) : Status × Status := (other, .empty)

def swap (a b : Status) : Status × Status := (b, a)

def assign (this other : Status) : Status × Status := swap this other

def toBool (this : Status) : Bool := this = .ok

def not (this : Status) : Bool := this = .error

def expect (this : Status) : Option Status := if this = .ok then some .empty else none

def expectErr (this : Status) : Option Status := if this = .error then some .empty else none

/-- What is left of `source` when an operation consumed it, `target` being the destination of an
assignment. There is no `move()` where there is no value. -/
def consume (op : Consumption) (source target : Status) : Option Status :=
  match op with
  | .moveResult => some (moveResult source).2
  | .assign => some (assign target source).2
  | .move => none
  | .expect => expect source
  | .expectErr => expectErr source

end VoidResult

/-- What `nullable_value_result<T>` knows of `T`: the value `T {}`, the test of
`generic_nullable_adaptor`, and what is left of a value that was moved from. -/
structure Nullable (T : Type) where
  null : T
  isNull : T → Bool
  isNull_null : isNull null = true
  movedFrom : T → T

/-- `T*`: moving from a pointer copies it. -/
def pointer : Nullable (Option Addr) where
  null := none
  isNull := Option.isNone
  isNull_null := rfl
  movedFrom p := p

namespace NullableResult

variable {T : Type} (N : Nullable T)

def swap (a b : T) : T × T := (b, a)

/-- `nullable_value_result(nullable_value_result&& other)`: the new result and `other`. -/
def moveResult (other : T) : T × T := swap N.null other

def assign (this other : T) : T × T := swap this other

/-- `operator bool()`. There is no `operator!()`. -/
def toBool (this : T) : Bool := !N.isNull this

def move (this : T) : Option (T × T) :=
  if toBool N this then some (this, N.movedFrom this) else none

def expect (this : T) : Option (T × T) :=
  if toBool N this then some (this, N.movedFrom this) else none

/-- `expect_err() const`. -/
def expectErr (this : T) : Option T := if !toBool N this then some this else none

/-- What is left of `source` when an operation consumed it, `target` being the destination of an
assignment. -/
def consume (op : Consumption) (source target : T) : Option T :=
  match op with
  | .moveResult => some (moveResult N source).2
  | .assign => some (assign target source).2
  | .move => (move N source).map Prod.snd
  | .expect => (expect N source).map Prod.snd
  | .expectErr => expectErr N source

end NullableResult

end LibCxxExt.Sys.Result
