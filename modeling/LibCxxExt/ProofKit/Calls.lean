import Mathlib.Logic.Function.Basic

/-! Sequences of calls on an object. A call on the code's object may be undefined, one on the object
that it stands for is not, and both return a value. -/

namespace LibCxxExt.ProofKit

variable {Object Abstract Call Return : Type*}

/-- What the calls return and the object that they leave, unless one of them is undefined. -/
def runCalls (call : Object → Call → Option (Return × Object)) (object : Object) :
    List Call → Option (List Return × Object)
  | [] => some ([], object)
  | c :: calls => do
    let (returned, object) ← call object c
    let (rest, object) ← runCalls call object calls
    return (returned :: rest, object)

def specCalls (call : Abstract → Call → Return × Abstract) (object : Abstract) :
    List Call → List Return × Abstract
  | [] => ([], object)
  | c :: calls =>
    let (returned, object) := call object c
    let (rest, object) := specCalls call object calls
    (returned :: rest, object)

/-- Each call is defined on an object that stands for another one, returns what it returns there and
leaves objects that stand for each other. -/
def Refines (rel : Object → Abstract → Prop) (call : Object → Call → Option (Return × Object))
    (spec : Abstract → Call → Return × Abstract) : Prop :=
  ∀ object abstract c, rel object abstract →
    ∃ object', call object c = some ((spec abstract c).1, object') ∧ rel object' (spec abstract c).2

theorem Refines.run {rel : Object → Abstract → Prop}
    {call : Object → Call → Option (Return × Object)} {spec : Abstract → Call → Return × Abstract}
    (refines : Refines rel call spec) {object : Object} {abstract : Abstract}
    (stands : rel object abstract) (calls : List Call) :
    ∃ object', runCalls call object calls = some ((specCalls spec abstract calls).1, object') ∧
      rel object' (specCalls spec abstract calls).2 := by
  induction calls generalizing object abstract with
  | nil => exact ⟨object, rfl, stands⟩
  | cons c calls ih =>
    obtain ⟨middle, first, stands⟩ := refines object abstract c stands
    obtain ⟨object', rest, stands⟩ := ih stands
    exact ⟨object', by simp [runCalls, specCalls, first, rest], stands⟩

end LibCxxExt.ProofKit
