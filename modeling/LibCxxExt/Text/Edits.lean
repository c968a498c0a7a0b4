import LibCxxExt.Text.CasingStable
import LibCxxExt.Text.Literals
import LibCxxExt.Text.Trim

/-! A `string` that is edited through its member functions, and converted between character types on
the way, against the sequence of codepoints that it stands for. The encoding of the string never
shows in the codepoints, which the edits change by functions of their own. -/

namespace LibCxxExt.Text

open LibCxxExt.ProofKit

/-! ### Sequences of codepoints -/

/-- What a text stands for. -/
@[ext] structure Codepoints where
  cps : List UInt32
  scalar : ∀ c ∈ cps, IsScalarValue c

namespace Codepoints

def encode (T : Encoding) (x : Codepoints) : List T.Unit := encodeAll T.Unit x.cps

def append (x y : Codepoints) : Codepoints where
  cps := x.cps ++ y.cps
  scalar c mem := (List.mem_append.mp mem).elim (x.scalar c) (y.scalar c)

def trimStart (x : Codepoints) : Codepoints where
  cps := x.cps.dropWhile isWhitespace
  scalar c mem := x.scalar c ((List.dropWhile_sublist _).subset mem)

def trimEnd (x : Codepoints) : Codepoints where
  cps := x.cps.rdropWhile isWhitespace
  scalar c mem := x.scalar c ((List.rdropWhile_prefix _ _).subset mem)

def toCase (map : CaseMapping) (lang : List UInt8) (x : Codepoints) : Codepoints where
  cps := map.mapped lang x.cps
  scalar := map.mapped_scalar lang x.scalar

def empty : Codepoints := ⟨[], by simp⟩

end Codepoints

/-! ### Strings and edits -/

/-- An object of `string<T>` for one of the character types. -/
structure Str where
  enc : Encoding
  units : List enc.Unit

/-- The member functions that change a string, and the constructor that converts it. What is
appended is a span that encodes codepoints. -/
inductive Edit
  | append (data : Codepoints)
  | trim
  | trimStart
  | trimEnd
  | toCase (map : CaseMapping) (lang : List UInt8)
  | replaceInvalid
  | clear
  | convert (U : Encoding)

namespace Edit

/-- What the edit does to a string. -/
def run : Edit → Str → Option Str
  | append data, ⟨T, s⟩ => some ⟨T, appendSpan s (data.encode T)⟩
  | trim, ⟨T, s⟩ => do return ⟨T, ← Text.trim s⟩
  | trimStart, ⟨T, s⟩ => do return ⟨T, ← Text.trimStart s⟩
  | trimEnd, ⟨T, s⟩ => do return ⟨T, ← Text.trimEnd s⟩
  | toCase map lang, ⟨T, s⟩ => do return ⟨T, ← map.apply s lang⟩
  | replaceInvalid, ⟨T, s⟩ => do return ⟨T, ← invalidsReplaced s⟩
  | clear, ⟨T, _⟩ => some ⟨T, []⟩
  | convert U, ⟨_, s⟩ => do return ⟨U, ← transcode U s⟩

/-- What the edit makes of the codepoints. -/
def apply : Edit → Codepoints → Codepoints
  | append data, x => x.append data
  | trim, x => x.trimEnd.trimStart
  | trimStart, x => x.trimStart
  | trimEnd, x => x.trimEnd
  | toCase map lang, x => x.toCase map lang
  | replaceInvalid, x => x
  | clear, _ => .empty
  | convert _, x => x

/-- The encoding after the edit. -/
def target : Edit → Encoding → Encoding
  | convert U, _ => U
  | _, T => T

end Edit

/-! ### Trimming encoded codepoints -/

theorem decode_encode (T : Encoding) (x : Codepoints) :
    (decoder T.Unit).decode (x.encode T) =
      x.cps.map fun c => (c, (LawfulCharacter.encode (T := T.Unit) c).length) := by
  rw [Codepoints.encode, encodeAll, decoder_reads.decode_flatMap]
  exact List.map_congr_left fun c mem => by rw [replaceInvalid_of_scalar (x.scalar c mem)]

theorem units_map_encode (T : Encoding) (cs : List UInt32) :
    Decoder.units (cs.map fun c => (c, (LawfulCharacter.encode (T := T.Unit) c).length)) =
      (encodeAll T.Unit cs).length := by
  induction cs with
  | nil => rfl
  | cons c cs ih => simp [Decoder.units_cons, ih, encodeAll]

theorem trimStart_encode (T : Encoding) (x : Codepoints) :
    trimStart (x.encode T) = some (x.trimStart.encode T) := by
  have split := List.takeWhile_append_dropWhile (p := isWhitespace) (l := x.cps)
  have first : front (x.encode T) = (encodeAll T.Unit (x.cps.takeWhile isWhitespace)).length := by
    rw [front, decode_encode, List.takeWhile_map, ← units_map_encode]
    rfl
  rw [trimStart_eq, first]
  conv_lhs => rw [Codepoints.encode, ← split, encodeAll_append, split]
  rw [List.drop_left]
  rfl

theorem trimEnd_encode (T : Encoding) (x : Codepoints) :
    trimEnd (x.encode T) = some (x.trimEnd.encode T) := by
  obtain ⟨tail, split⟩ := exists_rtail (p := isWhitespace) x.cps
  have kept : back (x.encode T) = (encodeAll T.Unit (x.cps.rdropWhile isWhitespace)).length := by
    rw [back, decode_encode, List.rdropWhile, ← List.map_reverse, List.dropWhile_map,
      ← List.map_reverse, ← units_map_encode]
    rfl
  rw [trimEnd_eq, kept]
  conv_lhs => rw [Codepoints.encode, split, encodeAll_append, ← split]
  rw [List.take_left]
  rfl

/-! ### Steps and runs -/

theorem Edit.run_encode (edit : Edit) (T : Encoding) (x : Codepoints) :
    edit.run ⟨T, x.encode T⟩ =
      some ⟨edit.target T, (edit.apply x).encode (edit.target T)⟩ := by
  have decodes : decoded (x.encode T) = x.cps := decoded_of_scalars T x.scalar
  cases edit with
  | append data =>
    show some (Str.mk T _) = some (Str.mk T _)
    rw [appendSpan, Codepoints.encode, Codepoints.encode, ← encodeAll_append]
    rfl
  | trim =>
    have ran : Text.trim (x.encode T) = some (x.trimEnd.trimStart.encode T) := by
      rw [Text.trim, trimEnd_encode, Option.bind_eq_bind, Option.bind_some, trimStart_encode]
    simp [run, ran, target, apply]
  | trimStart => simp [run, trimStart_encode, target, apply]
  | trimEnd => simp [run, trimEnd_encode, target, apply]
  | toCase map lang =>
    have ran : map.apply (x.encode T) lang = some ((x.toCase map lang).encode T) := by
      rw [map.apply_eq, decodes]
      rfl
    simp [run, ran, target, apply]
  | replaceInvalid =>
    have ran : invalidsReplaced (x.encode T) = some (x.encode T) :=
      invalidsReplaced_encodeAll T x.cps
    simp [run, ran, target, apply]
  | clear => rfl
  | convert U =>
    have ran : transcode U (x.encode T) = some (x.encode U) := transcode_encodeAll T U x.cps
    simp [run, ran, target, apply]

/-- The well-formed strings are the encodings of sequences of codepoints, each of one only. Edits
never fail on them, and after any run of edits the string is the encoding of what the edits make of
the codepoints, whatever encodings the string went through. -/
theorem edits_refine :
    (∀ (T : Encoding) (s : List T.Unit), T.WellFormed s ↔ ∃! x : Codepoints, x.encode T = s) ∧
    ∀ (edits : List Edit) (T : Encoding) (x : Codepoints),
      edits.foldlM (fun str edit => edit.run str) (Str.mk T (x.encode T)) =
        some ⟨edits.foldl (fun enc edit => edit.target enc) T,
          (edits.foldl (fun x edit => edit.apply x) x).encode _⟩ := by
  refine ⟨fun T s => ⟨fun wf => ?_, ?_⟩, fun edits => ?_⟩
  · obtain ⟨cs, hcs, rfl⟩ := exists_scalars T wf
    refine ⟨⟨cs, hcs⟩, rfl, fun x same => Codepoints.ext ?_⟩
    exact ((encode_selfSync T).flatMap_inj x.scalar hcs).mp same
  · rintro ⟨x, rfl, -⟩
    exact wellFormed_encodeAll T x.cps
  · induction edits with
    | nil => exact fun T x => rfl
    | cons edit edits ih =>
      intro T x
      rw [List.foldlM_cons, edit.run_encode]
      exact ih _ _

end LibCxxExt.Text
