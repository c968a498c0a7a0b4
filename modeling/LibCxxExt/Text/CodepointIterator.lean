import LibCxxExt.ProofKit.Decoder
import LibCxxExt.Text.Utf16

/-! `codepoint_iter` and `codepoint_view` (`CodepointIterator.h`) over the three Unicode character
types. An iterator holds positions in the buffer it walks. Walking a view reads the symbols of the
decoder that the character type's reader is. -/

namespace LibCxxExt.Text

open LibCxxExt.ProofKit

/-- A Unicode character type: `sizeof(T)` and its overloads of the reader and the writer. -/
class IUnicodeCharacter (T : Type) where
  size : Nat
  readCodepoint : List T → Option CodepointData
  writeCodepoint : UInt32 → List T → Option (List T × Nat)

export IUnicodeCharacter (readCodepoint writeCodepoint)

instance : IUnicodeCharacter UInt8 := ⟨1, readCodepoint8, writeCodepoint8⟩

instance : IUnicodeCharacter UInt16 := ⟨2, readCodepoint16, writeCodepoint16⟩

instance : IUnicodeCharacter UInt32 := ⟨4, readCodepoint32, writeCodepoint32⟩

/-- `sizeof(char32_t) / sizeof(T)`, the most units that a codepoint takes. -/
def unitsPerCodepoint (T : Type) [IUnicodeCharacter T] : Nat := 4 / IUnicodeCharacter.size T

/-- What the text algorithms rely on: `encode c` is what the writer stores for `c`, the reader takes
it back whatever follows, and on every nonempty buffer the reader makes progress. -/
class LawfulCharacter (T : Type) [IUnicodeCharacter T] where
  encode : UInt32 → List T
  encode_pos : ∀ c, 0 < (encode c).length
  encode_le : ∀ c, (encode c).length ≤ unitsPerCodepoint T
  write_eq : ∀ c out, unitsPerCodepoint T ≤ out.length → writeCodepoint c out =
    some (encode c ++ out.drop (encode c).length, (encode c).length)
  read_encode : ∀ c rest, readCodepoint (encode c ++ rest) =
    some ⟨replaceInvalid c, (encode c).length⟩
  read_progress : ∀ s : List T, s ≠ [] → ∃ d, readCodepoint s = some d ∧
    (0 < d.sizeBytes ∧ d.sizeBytes ≤ s.length) ∧ Utf8.Scalar d.c.toNat

theorem ofNat_replaceInvalid (c : UInt32) :
    UInt32.ofNat (replaceInvalid c).toNat = replaceInvalid c := by simp

theorem readCodepoint8_progress {s : List UInt8} (h : s ≠ []) : ∃ d, readCodepoint8 s = some d ∧
    (0 < d.sizeBytes ∧ d.sizeBytes ≤ s.length) ∧ Utf8.Scalar d.c.toNat := by
  obtain ⟨a, rest, rfl⟩ := List.exists_cons_of_ne_nil h
  by_cases wf : ∃ n c, Utf8.WellFormed (Utf8.takenFor a :: rest.take n) c
  · obtain ⟨n, c, wf⟩ := wf
    obtain ⟨-, -, -, -, -, -, scalar, -⟩ := (Utf8.wellFormed_cons _ _ _).mp wf
    have given := Utf8.read_of_wellFormed wf (rest.drop n)
    rw [List.take_append_drop] at given
    refine ⟨_, given, ⟨by simp, by simp⟩, ?_⟩
    have small : c < UInt32.size := by unfold Utf8.Scalar at scalar; rw [UInt32.size]; omega
    rwa [UInt32.toNat_ofNat_of_lt' small]
  · refine ⟨_, Utf8.read_of_not_wellFormed fun n c bad => wf ⟨n, c, bad⟩, ?_, by decide⟩
    simp [readCodepointFail]

theorem readCodepoint16_progress {s : List UInt16} (h : s ≠ []) :
    ∃ d, readCodepoint16 s = some d ∧ (0 < d.sizeBytes ∧ d.sizeBytes ≤ s.length) ∧
      Utf8.Scalar d.c.toNat := by
  obtain ⟨a, rest, rfl⟩ := List.exists_cons_of_ne_nil h
  obtain ⟨d, front⟩ := Front16.exists a rest
  refine ⟨d, front.read, ?_⟩
  cases front with
  | unit rest other =>
    refine ⟨by simp, ?_⟩
    have below := a.toNat_lt
    unfold HighSurrogate LowSurrogate at other
    rw [UInt16.toNat_toUInt32]
    unfold Utf8.Scalar
    omega
  | pair rest high low supplementary units => exact ⟨by simp, scalar_of_supplementary supplementary⟩
  | illFormed surrogate unpaired => exact ⟨by simp, by decide⟩

instance : LawfulCharacter UInt8 where
  encode c := encode8 (replaceInvalid c).toNat
  encode_pos c := (length_encode8 _).1
  encode_le c := (length_encode8 _).2
  write_eq c _ room := writeCodepoint8_eq c room
  read_encode c rest :=
    (read_encode8 (replaceInvalid_scalar c) rest).trans (by rw [ofNat_replaceInvalid])
  read_progress _ h := readCodepoint8_progress h

instance : LawfulCharacter UInt16 where
  encode c := encode16 (replaceInvalid c).toNat
  encode_pos c := (length_encode16 _).1
  encode_le c := (length_encode16 _).2
  write_eq c _ room := writeCodepoint16_eq c room
  read_encode c rest :=
    (read_encode16 (replaceInvalid_scalar c) rest).trans (by rw [ofNat_replaceInvalid])
  read_progress _ h := readCodepoint16_progress h

instance : LawfulCharacter UInt32 where
  encode c := encode32 (replaceInvalid c).toNat
  encode_pos c := Nat.one_pos
  encode_le c := Nat.le_refl 1
  write_eq c _ room := writeCodepoint32_eq c room
  read_encode c rest :=
    (read_encode32 (replaceInvalid_scalar c) rest).trans (by rw [ofNat_replaceInvalid])
  read_progress s h := by
    obtain ⟨a, rest, rfl⟩ := List.exists_cons_of_ne_nil h
    exact ⟨_, readCodepoint32_cons a rest, by simp, replaceInvalid_scalar a⟩

inductive Encoding
  | utf8
  | utf16
  | utf32
  deriving DecidableEq

@[reducible] def Encoding.Unit : Encoding → Type
  | .utf8 => UInt8
  | .utf16 => UInt16
  | .utf32 => UInt32

instance (e : Encoding) : IUnicodeCharacter e.Unit := by
  cases e <;> infer_instance

instance (e : Encoding) : LawfulCharacter e.Unit := by
  cases e <;> infer_instance

/-! ### The iterator -/

/-- `codepoint_iter`: the current and the end position, and the size of the current codepoint once
`operator*` has read it, which is otherwise 0. -/
structure CodepointIter where
  cur : Nat
  last : Nat
  cpSize : Nat
  deriving DecidableEq, Repr

namespace CodepointIter

variable {T : Type} [IUnicodeCharacter T]

/-- `std::span(this->cur, this->end)`. -/
def span (buf : List T) (it : CodepointIter) : List T := (buf.take it.last).drop it.cur

/-- `operator*`. -/
def deref (buf : List T) (it : CodepointIter) : Option (UInt32 × CodepointIter) := do
  let data ← readCodepoint (it.span buf)
  return (data.c, { it with cpSize := data.sizeBytes })

/-- The pre-increment. -/
def next (buf : List T) (it : CodepointIter) : Option CodepointIter := do
  let cpSize ← if it.cpSize = 0 then (readCodepoint (it.span buf)).map CodepointData.sizeBytes
    else some it.cpSize
  return { it with cur := it.cur + cpSize, cpSize := 0 }

/-- `operator==`, which leaves out the cached size. -/
def eq (a b : CodepointIter) : Bool := a.cur == b.cur && a.last == b.last

end CodepointIter

def viewBegin {T : Type} (s : List T) : CodepointIter := ⟨0, s.length, 0⟩

def viewEnd {T : Type} (s : List T) : CodepointIter := ⟨s.length, s.length, 0⟩

section Walk

variable {T : Type} [IUnicodeCharacter T]

/-- The loop `for (; it != last; ++it) … *it …`: the codepoints it visits, each with the number of
units that the increment moves past. It ends by `none` when it takes more than `fuel` steps. -/
def walkFrom (s : List T) (last : CodepointIter) :
    Nat → CodepointIter → Option (List (UInt32 × Nat))
  | 0, it => if it.eq last then some [] else none
  | fuel + 1, it =>
    if it.eq last then some []
    else do
      let (c, read) ← it.deref s
      let after ← read.next s
      let rest ← walkFrom s last fuel after
      return (c, after.cur - it.cur) :: rest

/-- `for (const char32_t c : codepoint_view(s))`, with at most one step for each unit. -/
def walk (s : List T) : Option (List (UInt32 × Nat)) :=
  walkFrom s (viewEnd s) s.length (viewBegin s)

def codepoints (s : List T) : Option (List UInt32) := do
  return (← walk s).map Prod.fst

variable [LawfulCharacter T]

def decoder (T : Type) [IUnicodeCharacter T] [LawfulCharacter T] : Decoder T UInt32 where
  symbol s := ((readCodepoint s).getD readCodepointFail).c
  size s := ((readCodepoint s).getD readCodepointFail).sizeBytes
  size_pos s h := by
    obtain ⟨d, read, size, -⟩ := LawfulCharacter.read_progress s h
    simpa [read] using size.1
  size_le s h := by
    obtain ⟨d, read, size, -⟩ := LawfulCharacter.read_progress s h
    simpa [read] using size.2

theorem readCodepoint_eq {s : List T} (h : s ≠ []) :
    readCodepoint s = some ⟨(decoder T).symbol s, (decoder T).size s⟩ := by
  obtain ⟨d, read, -⟩ := LawfulCharacter.read_progress s h
  simp [decoder, read]

theorem decoder_scalar {s : List T} (h : s ≠ []) : Utf8.Scalar ((decoder T).symbol s).toNat := by
  obtain ⟨d, read, -, scalar⟩ := LawfulCharacter.read_progress s h
  simpa [decoder, read] using scalar

/-- The writer's units are read back as the value, or as U+FFFD in its place. -/
theorem decoder_reads : (decoder T).Reads LawfulCharacter.encode replaceInvalid where
  nonempty c := List.ne_nil_of_length_pos (LawfulCharacter.encode_pos c)
  symbol c rest := by simp [decoder, LawfulCharacter.read_encode c rest]
  size c rest := by simp [decoder, LawfulCharacter.read_encode c rest]

theorem walk_step (s : List T) {cur : Nat} (inside : cur < s.length) :
    CodepointIter.deref s ⟨cur, s.length, 0⟩ = some ((decoder T).symbol (s.drop cur),
        ⟨cur, s.length, (decoder T).size (s.drop cur)⟩) ∧
      CodepointIter.next s ⟨cur, s.length, (decoder T).size (s.drop cur)⟩ =
        some ⟨cur + (decoder T).size (s.drop cur), s.length, 0⟩ := by
  have rest : s.drop cur ≠ [] := by simpa using inside
  have pos := (decoder T).size_pos _ rest
  constructor
  · simp [CodepointIter.deref, CodepointIter.span, readCodepoint_eq rest]
  · simp [CodepointIter.next, pos.ne']

theorem walkFrom_eq (s : List T) (fuel cur : Nat) (within : cur ≤ s.length)
    (enough : s.length - cur ≤ fuel) :
    walkFrom s (viewEnd s) fuel ⟨cur, s.length, 0⟩ = some ((decoder T).decode (s.drop cur)) := by
  induction fuel generalizing cur with
  | zero =>
    obtain rfl : cur = s.length := by omega
    simp [walkFrom, viewEnd, CodepointIter.eq]
  | succ fuel ih =>
    by_cases last : cur = s.length
    · subst last
      simp [walkFrom, viewEnd, CodepointIter.eq]
    · have inside : cur < s.length := by omega
      obtain ⟨deref, next⟩ := walk_step s inside
      have rest : s.drop cur ≠ [] := by simp; omega
      have pos := (decoder T).size_pos _ rest
      have le := (decoder T).size_le _ rest
      rw [List.length_drop] at le
      have step := ih (cur + (decoder T).size (s.drop cur)) (by omega) (by omega)
      rw [(decoder T).decode_ne_nil rest, List.drop_drop]
      simp [walkFrom, viewEnd, CodepointIter.eq, last, deref, next] at step ⊢
      simp [step]

/-- A walk ends within one step for each unit and visits what the decoder reads. -/
theorem walk_eq (s : List T) : walk s = some ((decoder T).decode s) := by
  simpa [walk, viewBegin] using walkFrom_eq s s.length 0 (Nat.zero_le _) (Nat.le_refl _)

def decoded (s : List T) : List UInt32 := ((decoder T).decode s).map Prod.fst

theorem codepoints_eq (s : List T) : codepoints s = some (decoded s) := by
  simp [codepoints, walk_eq, decoded]

theorem decoded_scalar (s : List T) : ∀ c ∈ decoded s, Utf8.Scalar c.toNat := by
  intro c hc
  obtain ⟨x, hx, rfl⟩ := List.mem_map.mp hc
  exact (decoder T).forall_decode (P := fun c => Utf8.Scalar c.toNat)
    (fun _ h => decoder_scalar h) s x hx

theorem walk_flatMap_encode (cs : List UInt32) :
    walk (cs.flatMap (LawfulCharacter.encode (T := T))) =
      some (cs.map fun c => (replaceInvalid c, (LawfulCharacter.encode (T := T) c).length)) := by
  rw [walk_eq, decoder_reads.decode_flatMap]

theorem decoded_flatMap_encode (cs : List UInt32) :
    decoded (cs.flatMap (LawfulCharacter.encode (T := T))) = cs.map replaceInvalid := by
  simp [decoded, decoder_reads.decode_flatMap]

/-- What is written for the codepoints of a text decodes to them. -/
theorem decoded_encode_decoded {U : Type} [IUnicodeCharacter U] [LawfulCharacter U]
    (s : List U) :
    decoded ((decoded s).flatMap (LawfulCharacter.encode (T := T))) = decoded s := by
  rw [decoded_flatMap_encode]
  refine (List.map_congr_left fun c hc => ?_).trans (List.map_id _)
  exact replaceInvalid_of_scalar (decoded_scalar s c hc)

end Walk

end LibCxxExt.Text
