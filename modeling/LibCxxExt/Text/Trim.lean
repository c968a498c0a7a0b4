import LibCxxExt.ProofKit.Trimming
import LibCxxExt.Text.CodepointIterator
import LibCxxExt.Text.Split

/-! `string::trimmed`, `start_trimmed` and `end_trimmed`, and the functions that trim in place
(`StringEx.h`). The end of the text is found by a scan from its start. Trimming in place scans the
shortened text once more, which decodes to the codepoints that are left even if it is malformed. -/

namespace LibCxxExt.Text

open LibCxxExt.ProofKit

/-! ### The model -/

/-- `internal::dchar_is_ws`. -/
def dcharIsWs (c : UInt32) : Bool :=
  [0x9, 0xA, 0xB, 0xC, 0xD, 0x20, 0x85, 0xA0, 0x1680, 0x2000, 0x2001, 0x2002, 0x2003, 0x2004,
    0x2005, 0x2006, 0x2007, 0x2008, 0x2009, 0x200A, 0x200E, 0x200F, 0x2028, 0x2029, 0x202F, 0x205F,
    0x3000].contains c

/-- `ch::is_whitespace` of a `char32_t`. -/
def isWhitespace (c : UInt32) : Bool := dcharIsWs c

/-- `operator<`, by way of `<=>`. -/
def CodepointIter.lt (a b : CodepointIter) : Bool :=
  a.cur < b.cur || a.cur == b.cur && a.last < b.last

section Model

variable {T : Type} [IUnicodeCharacter T]

/-- The loop of `first_non_ws_beg`. -/
def firstNonWsLoop (s : List T) (last : CodepointIter) :
    Nat → CodepointIter → Option CodepointIter
  | 0, _ => none
  | fuel + 1, ret => do
    if ret.lt last then
      let (c, ret) ← ret.deref s
      if isWhitespace c then firstNonWsLoop s last fuel (← ret.next s) else return ret
    else
      return ret

def firstNonWsBeg (s : List T) : Option Nat := do
  return (← firstNonWsLoop s (viewEnd s) (s.length + 1) (viewBegin s)).cur

/-- The loop of `last_ws_beg` over `it` and `ret`. -/
def lastWsLoop (s : List T) (last : CodepointIter) : Nat → CodepointIter → Nat → Option Nat
  | 0, _, _ => none
  | fuel + 1, it, ret => do
    if it.lt last then
      let (c, it) ← it.deref s
      let it ← it.next s
      lastWsLoop s last fuel it (if !isWhitespace c then it.cur else ret)
    else
      return ret

def lastWsBeg (s : List T) : Option Nat := lastWsLoop s (viewEnd s) (s.length + 1) (viewBegin s) 0

/-- `std::basic_string::erase` of `[first, last)`. -/
def erase (s : List T) (first last : Nat) : Option (List T) :=
  if first ≤ last ∧ last ≤ s.length then some (s.take first ++ s.drop last) else none

def trimmed (s : List T) : Option (List T) := do
  let first ← firstNonWsBeg s
  let last ← lastWsBeg s
  if first ≥ last then
    return []
  slice s first last

def startTrimmed (s : List T) : Option (List T) := do slice s (← firstNonWsBeg s) s.length

def endTrimmed (s : List T) : Option (List T) := do slice s 0 (← lastWsBeg s)

def trimStart (s : List T) : Option (List T) := do erase s 0 (← firstNonWsBeg s)

def trimEnd (s : List T) : Option (List T) := do erase s (← lastWsBeg s) s.length

def trim (s : List T) : Option (List T) := do trimStart (← trimEnd s)

end Model

/-! ### Shortened texts -/

theorem readCodepoint8_take {s : List UInt8} {n : Nat} {d : CodepointData}
    (read : readCodepoint8 s = some d) (enough : d.sizeBytes ≤ n) (some_ : 0 < n) :
    readCodepoint8 (s.take n) = some d := by
  obtain ⟨n, rfl⟩ := Nat.exists_eq_add_one_of_ne_zero some_.ne'
  cases s with
  | nil => simp [readCodepoint8] at read
  | cons a rest =>
    rw [List.take_succ_cons]
    by_cases wf : ∃ m c, Utf8.WellFormed (Utf8.takenFor a :: rest.take m) c
    · obtain ⟨m, c, wf⟩ := wf
      have whole := Utf8.read_of_wellFormed wf (rest.drop m)
      rw [List.take_append_drop, read, Option.some_inj] at whole
      subst whole
      obtain ⟨more, front⟩ : rest.take m <+: rest.take n :=
        List.prefix_take_iff.mpr ⟨List.take_prefix m rest, by simpa using enough⟩
      rw [← front]
      exact Utf8.read_of_wellFormed wf _
    · have bad (m c : Nat) : ¬ Utf8.WellFormed (Utf8.takenFor a :: rest.take m) c :=
        fun h => wf ⟨m, c, h⟩
      rw [Utf8.read_of_not_wellFormed bad] at read
      rw [Utf8.read_of_not_wellFormed fun m c => by rw [List.take_take]; exact bad _ c, read]

theorem readCodepoint16_take {s : List UInt16} {n : Nat} {d : CodepointData}
    (read : readCodepoint16 s = some d) (enough : d.sizeBytes ≤ n) (some_ : 0 < n) :
    readCodepoint16 (s.take n) = some d := by
  rw [readCodepoint16_iff] at read ⊢
  obtain ⟨n, rfl⟩ := Nat.exists_eq_add_one_of_ne_zero some_.ne'
  cases read with
  | unit rest other => exact .unit _ other
  | pair rest high low supplementary units =>
    obtain ⟨n, rfl⟩ := Nat.exists_eq_add_one_of_ne_zero (n := n) (by dsimp only at enough; omega)
    exact .pair _ high low supplementary units
  | @illFormed a rest surrogate unpaired =>
    refine .illFormed surrogate fun paired => unpaired ?_
    obtain ⟨lead, trail, tail, shape, high, low⟩ := paired
    refine ⟨lead, trail, tail ++ rest.drop n, ?_, high, low⟩
    rw [← List.cons_append, ← List.cons_append, ← shape, List.cons_append, List.take_append_drop]

theorem readCodepoint32_take {s : List UInt32} {n : Nat} {d : CodepointData}
    (read : readCodepoint32 s = some d) (some_ : 0 < n) : readCodepoint32 (s.take n) = some d := by
  obtain ⟨n, rfl⟩ := Nat.exists_eq_add_one_of_ne_zero some_.ne'
  cases s with
  | nil => simp [readCodepoint32] at read
  | cons a rest =>
    rw [List.take_succ_cons, readCodepoint32_cons]
    rwa [readCodepoint32_cons] at read

/-- What was no valid sequence does not become one when the buffer ends behind it. -/
theorem readCodepoint_take (T : Encoding) {s : List T.Unit} {n : Nat} {d : CodepointData}
    (read : readCodepoint s = some d) (enough : d.sizeBytes ≤ n) (some_ : 0 < n) :
    readCodepoint (s.take n) = some d := by
  cases T with
  | utf8 => exact readCodepoint8_take read enough some_
  | utf16 => exact readCodepoint16_take read enough some_
  | utf32 => exact readCodepoint32_take read some_

theorem decoder_local (T : Encoding) : (decoder T.Unit).Local := by
  intro s n nonempty enough
  obtain ⟨d, read, ⟨pos, -⟩, -⟩ := LawfulCharacter.read_progress s nonempty
  have size : (decoder T.Unit).size s = d.sizeBytes := by simp [decoder, read]
  have taken := readCodepoint_take T read (size ▸ enough) (by omega)
  simp [decoder, read, taken]

/-! ### The scans -/

section Scans

variable {T : Type} [IUnicodeCharacter T] [LawfulCharacter T]

/-- A decoded codepoint is whitespace. -/
def blank (x : UInt32 × Nat) : Bool := isWhitespace x.1

omit [IUnicodeCharacter T] [LawfulCharacter T] in
theorem lt_viewEnd (s : List T) (cur : Nat) :
    (⟨cur, s.length, 0⟩ : CodepointIter).lt (viewEnd s) = decide (cur < s.length) := by
  show (decide (cur < s.length) || cur == s.length && decide (s.length < s.length)) = _
  simp

/-- The first loop stops before the first codepoint that is no whitespace. -/
theorem firstNonWsLoop_eq (s : List T) (fuel cur : Nat) (within : cur ≤ s.length)
    (enough : s.length < cur + fuel) :
    ∃ it, firstNonWsLoop s (viewEnd s) fuel ⟨cur, s.length, 0⟩ = some it ∧
      it.cur = cur + Decoder.units (((decoder T).decode (s.drop cur)).takeWhile blank) := by
  induction fuel generalizing cur with
  | zero => omega
  | succ fuel ih =>
    by_cases inside : cur < s.length
    · obtain ⟨deref, next⟩ := walk_step s inside
      have rest : s.drop cur ≠ [] := by simpa using inside
      have pos := (decoder T).size_pos _ rest
      have le := (decoder T).size_le _ rest
      rw [List.length_drop] at le
      have step := ih (cur + (decoder T).size (s.drop cur)) (by omega) (by omega)
      rw [(decoder T).decode_ne_nil rest, List.takeWhile_cons]
      rw [← List.drop_drop] at step
      by_cases white : isWhitespace ((decoder T).symbol (s.drop cur)) = true
      · obtain ⟨it, ran, stands⟩ := step
        refine ⟨it, ?_, ?_⟩
        · simp [firstNonWsLoop, lt_viewEnd, inside, deref, white, next, ran]
        · simp [blank, white, Decoder.units_cons, stands, Nat.add_assoc]
      · refine ⟨⟨cur, s.length, (decoder T).size (s.drop cur)⟩, ?_, ?_⟩
        · simp [firstNonWsLoop, lt_viewEnd, inside, deref, white]
        · simp [blank, white, Decoder.units_nil]
    · have ended : s.drop cur = [] := by simpa using inside
      refine ⟨⟨cur, s.length, 0⟩, ?_, by simp [ended, Decoder.units_nil]⟩
      simp [firstNonWsLoop, lt_viewEnd, inside]

/-- The second loop keeps the end of the last codepoint that is no whitespace, or `ret` if none
comes. -/
theorem lastWsLoop_eq (s : List T) (fuel cur ret : Nat) (within : cur ≤ s.length)
    (enough : s.length < cur + fuel) :
    lastWsLoop s (viewEnd s) fuel ⟨cur, s.length, 0⟩ ret =
      some (if ((decoder T).decode (s.drop cur)).rdropWhile blank = [] then ret
        else cur + Decoder.units (((decoder T).decode (s.drop cur)).rdropWhile blank)) := by
  induction fuel generalizing cur ret with
  | zero => omega
  | succ fuel ih =>
    by_cases inside : cur < s.length
    · obtain ⟨deref, next⟩ := walk_step s inside
      have rest : s.drop cur ≠ [] := by simpa using inside
      have pos := (decoder T).size_pos _ rest
      have le := (decoder T).size_le _ rest
      rw [List.length_drop] at le
      have step (ret : Nat) :=
        ih (cur + (decoder T).size (s.drop cur)) ret (by omega) (by omega)
      simp only [← List.drop_drop] at step
      rw [(decoder T).decode_ne_nil rest, rdropWhile_cons]
      have turn : lastWsLoop s (viewEnd s) (fuel + 1) ⟨cur, s.length, 0⟩ ret =
          lastWsLoop s (viewEnd s) fuel ⟨cur + (decoder T).size (s.drop cur), s.length, 0⟩
            (if !isWhitespace ((decoder T).symbol (s.drop cur))
              then cur + (decoder T).size (s.drop cur) else ret) := by
        simp [lastWsLoop, lt_viewEnd, inside, deref, next]
      rw [turn, step]
      generalize (decoder T).decode ((s.drop cur).drop ((decoder T).size (s.drop cur))) = behind
      by_cases gone : behind.rdropWhile blank = [] <;>
        by_cases white : isWhitespace ((decoder T).symbol (s.drop cur)) = true <;>
        simp [gone, blank, white, Decoder.units_cons, Decoder.units_nil, Nat.add_assoc]
    · have ended : s.drop cur = [] := by simpa using inside
      simp [lastWsLoop, lt_viewEnd, inside, ended]

/-- The units of the whitespace at the start of `s`. -/
def front (s : List T) : Nat := Decoder.units (((decoder T).decode s).takeWhile blank)

/-- The units of `s` without the whitespace at its end. -/
def back (s : List T) : Nat := Decoder.units (((decoder T).decode s).rdropWhile blank)

theorem front_le (s : List T) : front s ≤ s.length := by
  have split := congrArg Decoder.units
    (List.takeWhile_append_dropWhile (p := blank) (l := (decoder T).decode s))
  rw [Decoder.units_append, Decoder.units_decode] at split
  rw [front]
  omega

theorem back_le (s : List T) : back s ≤ s.length := by
  obtain ⟨tail, split⟩ := exists_rtail (p := blank) ((decoder T).decode s)
  have whole := congrArg Decoder.units split
  rw [Decoder.units_append, Decoder.units_decode] at whole
  rw [back]
  omega

theorem firstNonWsBeg_eq (s : List T) : firstNonWsBeg s = some (front s) := by
  obtain ⟨it, ran, stands⟩ := firstNonWsLoop_eq s (s.length + 1) 0 (Nat.zero_le _) (by omega)
  simpa [firstNonWsBeg, viewBegin, ran, front] using stands

theorem lastWsBeg_eq (s : List T) : lastWsBeg s = some (back s) := by
  have ran := lastWsLoop_eq s (s.length + 1) 0 0 (Nat.zero_le _) (by omega)
  rw [lastWsBeg, viewBegin, ran, List.drop_zero, Nat.zero_add, back]
  split_ifs with gone <;> simp [gone, Decoder.units_nil]

theorem startTrimmed_eq (s : List T) : startTrimmed s = some (s.drop (front s)) := by
  have le := front_le s
  simp [startTrimmed, firstNonWsBeg_eq, slice, le]

theorem endTrimmed_eq (s : List T) : endTrimmed s = some (s.take (back s)) := by
  have le := back_le s
  simp [endTrimmed, lastWsBeg_eq, slice, le]

theorem trimStart_eq (s : List T) : trimStart s = some (s.drop (front s)) := by
  have le := front_le s
  simp [trimStart, firstNonWsBeg_eq, erase, le]

theorem trimEnd_eq (s : List T) : trimEnd s = some (s.take (back s)) := by
  have le := back_le s
  simp [trimEnd, lastWsBeg_eq, erase, le]

theorem trimmed_eq (s : List T) : trimmed s = some ((s.take (back s)).drop (front s)) := by
  have le := back_le s
  simp only [trimmed, firstNonWsBeg_eq, lastWsBeg_eq, Option.bind_eq_bind, Option.bind_some]
  split_ifs with crossed
  · have empty : (s.take (back s)).drop (front s) = [] := by
      rw [List.drop_eq_nil_iff, List.length_take]
      omega
    rw [empty]
    rfl
  · rw [slice, if_pos (by omega), List.drop_take]

theorem trim_eq (s : List T) :
    trim s = some ((s.take (back s)).drop (front (s.take (back s)))) := by
  simp [trim, trimEnd_eq, trimStart_eq]

theorem decode_drop_front (s : List T) :
    (decoder T).decode (s.drop (front s)) = ((decoder T).decode s).dropWhile blank :=
  (decoder T).decode_drop List.takeWhile_append_dropWhile.symm

end Scans

section Trimmed

variable {T : Encoding}

theorem decode_take_back (s : List T.Unit) :
    (decoder T.Unit).decode (s.take (back s)) = ((decoder T.Unit).decode s).rdropWhile blank := by
  obtain ⟨tail, split⟩ := exists_rtail (p := blank) ((decoder T.Unit).decode s)
  exact (decoder_local T).decode_take split

/-- Cutting the end leaves the same whitespace at the start, or nothing at all. -/
theorem drop_front_take (s : List T.Unit) :
    (s.take (back s)).drop (front (s.take (back s))) = (s.take (back s)).drop (front s) := by
  by_cases gone : ((decoder T.Unit).decode s).rdropWhile blank = []
  · simp [back, gone, Decoder.units_nil]
  · rw [front, decode_take_back, takeWhile_rdropWhile gone]
    rfl

/-- Trimming in place agrees with the copies. Both remove whole codepoints at either end, also from
a malformed text, and what they leave decodes to the others. -/
theorem trim_exact (T : Encoding) (s : List T.Unit) : ∃ cs, walk s = some cs ∧
    (∃ t, t = s.drop (Decoder.units (cs.takeWhile blank)) ∧
      startTrimmed s = some t ∧ trimStart s = some t ∧ walk t = some (cs.dropWhile blank)) ∧
    (∃ t, t = s.take (Decoder.units (cs.rdropWhile blank)) ∧
      endTrimmed s = some t ∧ trimEnd s = some t ∧ walk t = some (cs.rdropWhile blank)) ∧
    ∃ t, t = (s.take (Decoder.units (cs.rdropWhile blank))).drop
        (Decoder.units (cs.takeWhile blank)) ∧
      trimmed s = some t ∧ trim s = some t ∧
      walk t = some ((cs.dropWhile blank).rdropWhile blank) ∧ trim t = some t := by
  have both : (decoder T.Unit).decode ((s.take (back s)).drop (front s)) =
      (((decoder T.Unit).decode s).rdropWhile blank).dropWhile blank := by
    rw [← drop_front_take, decode_drop_front, decode_take_back]
  refine ⟨_, walk_eq s, ⟨_, rfl, startTrimmed_eq s, trimStart_eq s, ?_⟩,
    ⟨_, rfl, endTrimmed_eq s, trimEnd_eq s, ?_⟩, _, rfl, trimmed_eq s, ?_, ?_, ?_⟩
  · exact (walk_eq _).trans (congrArg some (decode_drop_front s))
  · exact (walk_eq _).trans (congrArg some (decode_take_back s))
  · exact (trim_eq s).trans (congrArg some (drop_front_take s))
  · exact (walk_eq _).trans (congrArg some (both.trans (dropWhile_rdropWhile _)))
  · generalize taken : (s.take (back s)).drop (front s) = t at both
    have whole : back t = t.length := by
      rw [back, both, dropWhile_rdropWhile, List.rdropWhile_idempotent, ← dropWhile_rdropWhile,
        ← both, Decoder.units_decode]
    have none : front t = 0 := by
      rw [front, both, takeWhile_dropWhile, Decoder.units_nil]
    show trim ((s.take (back s)).drop (front s)) = some ((s.take (back s)).drop (front s))
    rw [taken, trim_eq, drop_front_take, whole, none, List.take_length, List.drop_zero]

end Trimmed

end LibCxxExt.Text
