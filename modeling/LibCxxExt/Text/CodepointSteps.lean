import LibCxxExt.Text.CodepointIterator

/-! Iteration with any mixture of the calls of `codepoint_iter`. The cached size is either unset or
the one that a read at the current position gives, so that it makes no difference how often an
iterator was dereferenced before it moves on. -/

namespace LibCxxExt.Text

open LibCxxExt.ProofKit

namespace CodepointIter

variable {T : Type} [IUnicodeCharacter T]

/-- The post-increment: the copy that it returns, and `*this`. -/
def postNext (buf : List T) (it : CodepointIter) : Option (CodepointIter × CodepointIter) := do
  return (it, ← it.next buf)

end CodepointIter

inductive IterCall
  | deref
  | preIncrement
  | postIncrement
  deriving DecidableEq

namespace IterCall

variable {T : Type} [IUnicodeCharacter T]

/-- What becomes of the iterator. -/
def run (buf : List T) : IterCall → CodepointIter → Option CodepointIter
  | deref, it => (it.deref buf).map Prod.snd
  | preIncrement, it => it.next buf
  | postIncrement, it => (it.postNext buf).map Prod.snd

def increments : IterCall → Nat
  | deref => 0
  | preIncrement | postIncrement => 1

end IterCall

section Iteration

variable {T : Type} [IUnicodeCharacter T]

/-- `k` increments, and any number of reads, have taken an iterator from the beginning of `s` to
`it`. Before each of them it was compared with the end. -/
inductive Reaches (s : List T) : Nat → CodepointIter → Prop
  | begin : Reaches s 0 (viewBegin s)
  | call {k : Nat} {it after : CodepointIter} (c : IterCall) : Reaches s k it →
    it.eq (viewEnd s) = false → c.run s it = some after → Reaches s (k + c.increments) after

variable [LawfulCharacter T]

/-- The iterator stands at the `k`-th boundary, and what it has cached was read there. -/
structure StandsAt (s : List T) (k : Nat) (it : CodepointIter) : Prop where
  last : it.last = s.length
  cur : it.cur = (decoder T).boundary s k
  count : k ≤ ((decoder T).slices s).length
  cached : it.cpSize ≠ 0 → it.cur < s.length ∧ it.cpSize = (decoder T).size (s.drop it.cur)

section Steps

variable {s : List T} {k : Nat} {it : CodepointIter}

theorem StandsAt.eq_viewEnd_iff (stands : StandsAt s k it) :
    it.eq (viewEnd s) = true ↔ k = ((decoder T).slices s).length := by
  have done := (decoder T).boundary_eq_length_iff s k
  have count := stands.count
  rw [← stands.cur] at done
  simp only [CodepointIter.eq, viewEnd, stands.last, beq_self_eq_true, Bool.and_true, beq_iff_eq]
  omega

theorem StandsAt.inside (stands : StandsAt s k it) (more : it.eq (viewEnd s) = false) :
    k < ((decoder T).slices s).length ∧ it.cur < s.length ∧ it.span s = s.drop it.cur := by
  have count := stands.count
  have le := (decoder T).boundary_le s k
  have ends := stands.eq_viewEnd_iff
  have done := (decoder T).boundary_eq_length_iff s k
  rw [more] at ends
  rw [← stands.cur] at le done
  refine ⟨by simp at ends; omega, by simp at ends; omega, ?_⟩
  rw [CodepointIter.span, stands.last, List.take_length]

theorem StandsAt.deref (stands : StandsAt s k it) (more : it.eq (viewEnd s) = false) :
    ∃ after, IterCall.deref.run s it = some after ∧ after.cur = it.cur ∧ StandsAt s k after := by
  obtain ⟨-, inside, span⟩ := stands.inside more
  have rest : s.drop it.cur ≠ [] := by simpa using inside
  refine ⟨{ it with cpSize := (decoder T).size (s.drop it.cur) }, ?_, rfl, ?_⟩
  · simp [IterCall.run, CodepointIter.deref, span, readCodepoint_eq rest]
  · exact ⟨stands.last, stands.cur, stands.count, fun _ => ⟨inside, rfl⟩⟩

theorem StandsAt.next (stands : StandsAt s k it) (more : it.eq (viewEnd s) = false) :
    ∃ after, it.next s = some after ∧ it.cur < after.cur ∧ StandsAt s (k + 1) after := by
  obtain ⟨bound, inside, span⟩ := stands.inside more
  have rest : s.drop it.cur ≠ [] := by simpa using inside
  have pos := (decoder T).size_pos _ rest
  have moved : it.next s =
      some { it with cur := it.cur + (decoder T).size (s.drop it.cur), cpSize := 0 } := by
    by_cases unset : it.cpSize = 0
    · simp [CodepointIter.next, unset, span, readCodepoint_eq rest]
    · simp [CodepointIter.next, (stands.cached unset).2, pos.ne']
  refine ⟨_, moved, by simpa using pos, stands.last, ?_, bound, fun set => absurd rfl set⟩
  rw [stands.cur] at rest ⊢
  exact ((decoder T).boundary_succ rest).symm

/-- Every call on an iterator before the end succeeds, and an increment moves it to the next
boundary. -/
theorem StandsAt.run (stands : StandsAt s k it) (more : it.eq (viewEnd s) = false)
    (c : IterCall) : ∃ after, c.run s it = some after ∧
      it.cur + c.increments ≤ after.cur ∧ StandsAt s (k + c.increments) after := by
  cases c with
  | deref =>
    obtain ⟨after, ran, same, stands⟩ := stands.deref more
    exact ⟨after, ran, same.ge, stands⟩
  | preIncrement => exact stands.next more
  | postIncrement =>
    obtain ⟨after, moved, advanced, stands⟩ := stands.next more
    exact ⟨after, by simp [IterCall.run, CodepointIter.postNext, moved], advanced, stands⟩

theorem Reaches.standsAt (reaches : Reaches s k it) : StandsAt s k it := by
  induction reaches with
  | begin => exact ⟨rfl, by simp [viewBegin, Decoder.boundary], Nat.zero_le _, nofun⟩
  | call c _ more ran stands =>
    obtain ⟨after, ran', -, next⟩ := stands.run more c
    rw [ran, Option.some_inj] at ran'
    exact ran' ▸ next

end Steps

/-- An iteration visits the boundaries of the slices, whatever was dereferenced in between. It never
reads outside the buffer, advances with every increment and is at the end after the last slice. -/
theorem iteration_slices (T : Encoding) (s : List T.Unit) :
    ∃ slices : List (List T.Unit), slices.flatten = s ∧ (∀ slice ∈ slices, slice ≠ []) ∧
      slices.length ≤ s.length ∧ ∀ k it, Reaches s k it →
        (it.cur = (slices.take k).flatten.length ∧ it.cur ≤ s.length) ∧
        k ≤ slices.length ∧ (it.eq (viewEnd s) = true ↔ k = slices.length) ∧
        (it.eq (viewEnd s) = false → ∀ c : IterCall, ∃ after, c.run s it = some after ∧
          it.cur + c.increments ≤ after.cur) := by
  refine ⟨(decoder T.Unit).slices s, (decoder T.Unit).flatten_slices s,
    (decoder T.Unit).ne_nil_of_mem_slices s, (decoder T.Unit).length_slices_le s,
    fun k it reaches => ?_⟩
  have stands := reaches.standsAt
  refine ⟨⟨stands.cur, ?_⟩, stands.count, stands.eq_viewEnd_iff, fun more c => ?_⟩
  · rw [stands.cur]
    exact (decoder T.Unit).boundary_le s k
  · obtain ⟨after, ran, advanced, -⟩ := stands.run more c
    exact ⟨after, ran, advanced⟩

end Iteration

end LibCxxExt.Text
