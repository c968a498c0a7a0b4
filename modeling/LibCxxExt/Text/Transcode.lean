import LibCxxExt.Text.CodepointIterator

/-! The functions of `string` that decode a text and write it again: the transcoding constructor and
`invalids_replaced` (`StringEx.h`). What they write decodes to what they read. -/

namespace LibCxxExt.Text

open LibCxxExt.ProofKit

section Append

variable {T : Type} [IUnicodeCharacter T] [Inhabited T]

/-- `T buf[room] {}; ret.append(std::span(buf, ch::write_codepoint(c, buf, unsafe)));`. -/
def appendCodepoint (room : Nat) (ret : List T) (c : UInt32) : Option (List T) := do
  let (buf, count) ← writeCodepoint c (List.replicate room default)
  return ret ++ buf.take count

/-- The loop that appends every codepoint of `other`. -/
def appendCodepoints {U : Type} [IUnicodeCharacter U] (other : List U) : Option (List T) := do
  (← codepoints other).foldlM (appendCodepoint (unitsPerCodepoint T + 1)) []

variable [LawfulCharacter T]

theorem appendCodepoint_eq {room : Nat} (enough : unitsPerCodepoint T ≤ room) (ret : List T)
    (c : UInt32) : appendCodepoint room ret c = some (ret ++ LawfulCharacter.encode c) := by
  have written := LawfulCharacter.write_eq c (List.replicate room (default : T)) (by simpa)
  simp [appendCodepoint, written]

theorem appendCodepoint_foldlM {room : Nat} (enough : unitsPerCodepoint T ≤ room)
    (cs : List UInt32) (ret : List T) :
    cs.foldlM (appendCodepoint room) ret = some (ret ++ cs.flatMap LawfulCharacter.encode) := by
  induction cs generalizing ret with
  | nil => simp
  | cons c cs ih => simp [appendCodepoint_eq enough, ih]

/-- The text of the codepoints of `other`, encoded one after the other. -/
theorem appendCodepoints_eq {U : Type} [IUnicodeCharacter U] [LawfulCharacter U]
    (other : List U) :
    appendCodepoints (T := T) other = some ((decoded other).flatMap LawfulCharacter.encode) := by
  simp [appendCodepoints, codepoints_eq, appendCodepoint_foldlM]

end Append

instance (e : Encoding) : Inhabited e.Unit := by
  cases e <;> infer_instance

/-- `string<T>::string(const std::basic_string_view<U>)`. -/
def transcode {U : Encoding} (T : Encoding) (other : List U.Unit) : Option (List T.Unit) :=
  appendCodepoints other

/-- `string<T>::invalids_replaced`. -/
def invalidsReplaced {T : Encoding} (s : List T.Unit) : Option (List T.Unit) :=
  appendCodepoints s

/-- Transcoding keeps the codepoint sequence of every buffer, and transcoding back replaces what was
invalid. The constructor asks for distinct character types; the argument does not. -/
theorem transcode_roundtrip (T U : Encoding) (s : List T.Unit) :
    ∃ (t : List U.Unit) (back : List T.Unit), transcode U s = some t ∧
      (∃ cs, codepoints s = some cs ∧ codepoints t = some cs) ∧
      transcode T t = some back ∧ invalidsReplaced s = some back := by
  refine ⟨_, _, appendCodepoints_eq s, ⟨decoded s, codepoints_eq s, ?_⟩, ?_,
    appendCodepoints_eq s⟩
  · rw [codepoints_eq, decoded_encode_decoded]
  · rw [transcode, appendCodepoints_eq, decoded_encode_decoded]

/-- Decoding undoes encoding over whole texts: `written c` is what every overload stores for `c` in
the first units of a buffer, and a walk over the concatenation moves past exactly these units. -/
theorem walk_written (T : Encoding) : ∃ written : UInt32 → List T.Unit,
    (∀ c out, unitsPerCodepoint T.Unit ≤ out.length → writeCodepoint c out =
      some (written c ++ out.drop (written c).length, (written c).length)) ∧
    (∀ c, (written c).length ≤ unitsPerCodepoint T.Unit) ∧
    ∀ cs : List UInt32, walk (cs.flatMap written) = some (cs.map fun c =>
      (if isScalar c then c else 0xFFFD, (written c).length)) :=
  ⟨LawfulCharacter.encode, LawfulCharacter.write_eq, LawfulCharacter.encode_le,
    walk_flatMap_encode⟩

end LibCxxExt.Text
