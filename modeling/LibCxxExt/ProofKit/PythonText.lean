import LibCxxExt.ProofKit.Pieces
import Mathlib.Data.Finset.Image
import Mathlib.Data.List.DropRight
import Mathlib.Data.Nat.Digits.Lemmas

/-! `range`, and operations of Python's `str` on lists of characters: the lines of a file in text
mode, `split`, `strip`, `int` to base 16, and numbers as text. A failure stands for an exception. -/

namespace LibCxxExt.ProofKit.Python

/-- The lines that a loop over a file in text mode yields, the first of which starts with `acc`.
Every kind of line break becomes a line feed. -/
def readLines (acc : List Char) : List Char → List (List Char)
  | [] => if acc.isEmpty then [] else [acc]
  | '\r' :: '\n' :: rest => (acc ++ ['\n']) :: readLines [] rest
  | c :: rest =>
    if c = '\n' ∨ c = '\r' then (acc ++ ['\n']) :: readLines [] rest
    else readLines (acc ++ [c]) rest

/-- The elements of `range(start, stop)`. -/
def range (start stop : Int) : Finset Int :=
  (Finset.range (stop - start).toNat).image fun i : Nat => start + i

/-- `s.split(sep)`. -/
def split (s : List Char) : List Char → Option (List (List Char))
  | [] => none
  | a :: d => some (pieces a d [] s)

def isSpace (c : Char) : Bool :=
  let cp := c.toNat
  0x9 ≤ cp && cp ≤ 0xD || 0x1C ≤ cp && cp ≤ 0x20 || cp == 0x85 || cp == 0xA0 || cp == 0x1680 ||
    0x2000 ≤ cp && cp ≤ 0x200A || cp == 0x2028 || cp == 0x2029 || cp == 0x202F || cp == 0x205F ||
    cp == 0x3000

def strip (s : List Char) : List Char := (s.dropWhile isSpace).rdropWhile isSpace

/-- `s.split()`. -/
def words (s : List Char) : List (List Char) := (s.splitOnP isSpace).filter (· ≠ [])

def hexDigit (c : Char) : Option Nat :=
  let cp := c.toNat
  if 0x30 ≤ cp ∧ cp ≤ 0x39 then some (cp - 0x30)
  else if 0x41 ≤ cp ∧ cp ≤ 0x46 then some (cp - 0x41 + 10)
  else if 0x61 ≤ cp ∧ cp ≤ 0x66 then some (cp - 0x61 + 10)
  else none

/-- The digits behind those of `value`, which single underscores may separate. -/
def hexDigits (value : Nat) : List Char → Option Nat
  | [] => some value
  | '_' :: c :: rest => do hexDigits (16 * value + (← hexDigit c)) rest
  | c :: rest => do hexDigits (16 * value + (← hexDigit c)) rest

def unsignedHex : List Char → Option Nat
  | '0' :: 'x' :: '_' :: c :: rest | '0' :: 'X' :: '_' :: c :: rest
  | '0' :: 'x' :: c :: rest | '0' :: 'X' :: c :: rest
  | c :: rest => do hexDigits (← hexDigit c) rest
  | [] => none

/-- `int(s, 16)`, for digits of the Latin alphabet. -/
def int16 (s : List Char) : Option Int :=
  match strip s with
  | '-' :: digits => do return -(← unsignedHex digits : Nat)
  | '+' :: digits => do return (← unsignedHex digits : Nat)
  | digits => do return (← unsignedHex digits : Nat)

example : int16 " -0x_1F_f ".toList = some (-511) := by decide

theorem mem_range {start stop cp : Int} : cp ∈ range start stop ↔ start ≤ cp ∧ cp < stop := by
  rw [range, Finset.mem_image]
  constructor
  · rintro ⟨i, mem, rfl⟩
    have := Finset.mem_range.mp mem
    omega
  · rintro ⟨low, high⟩
    exact ⟨(cp - start).toNat, Finset.mem_range.mpr (by omega), by omega⟩

/-! ### What they do to plain texts -/

theorem readLines_line {acc line rest : List Char} (lf : '\n' ∉ line) (cr : '\r' ∉ line) :
    readLines acc (line ++ '\n' :: rest) = (acc ++ line ++ ['\n']) :: readLines [] rest := by
  induction line generalizing acc with
  | nil => simp [readLines]
  | cons c line ih =>
    rw [List.mem_cons, not_or] at lf cr
    rw [List.cons_append, readLines, if_neg (by simp [Ne.symm lf.1, Ne.symm cr.1]), ih lf.2 cr.2,
      List.append_assoc acc, List.singleton_append]
    exact fun _ same => absurd same.symm cr.1

theorem readLines_flatMap {lines : List (List Char)}
    (oneLine : ∀ line ∈ lines, '\n' ∉ line ∧ '\r' ∉ line) :
    readLines [] (lines.flatMap (· ++ ['\n'])) = lines.map (· ++ ['\n']) := by
  induction lines with
  | nil => rfl
  | cons line lines ih =>
    have ⟨lf, cr⟩ := oneLine line List.mem_cons_self
    rw [List.flatMap_cons, List.append_assoc, List.singleton_append, readLines_line lf cr,
      List.nil_append, ih fun other mem => oneLine other (List.mem_cons_of_mem _ mem),
      List.map_cons]

theorem dropWhile_solid {s : List Char} (solid : ∀ c ∈ s, isSpace c = false) :
    s.dropWhile isSpace = s := by
  cases s with
  | nil => rfl
  | cons c s => rw [List.dropWhile_cons_of_neg (by simp [solid c List.mem_cons_self])]

theorem strip_append {word padding : List Char} (solid : ∀ c ∈ word, isSpace c = false)
    (blank : ∀ c ∈ padding, isSpace c = true) : strip (word ++ padding) = word := by
  have trailing : (word ++ padding).rdropWhile isSpace = word := by
    rw [List.rdropWhile, List.reverse_append,
      List.dropWhile_append_of_pos fun c mem => blank c (List.mem_reverse.mp mem),
      dropWhile_solid fun c mem => solid c (List.mem_reverse.mp mem), List.reverse_reverse]
  rw [strip]
  cases word with
  | nil =>
    rw [List.nil_append, List.dropWhile_eq_nil_iff.mpr blank, List.rdropWhile_nil]
  | cons c word =>
    rw [List.cons_append, List.dropWhile_cons_of_neg (by simp [solid c List.mem_cons_self]),
      ← List.cons_append, trailing]

/-- What `strip` leaves starts and ends with a character that is not blank. -/
theorem strip_eq {front s back : List Char} (blank : ∀ c ∈ front ++ back, isSpace c = true)
    (first : ∀ c ∈ s.head?, isSpace c = false) (last : ∀ c ∈ s.getLast?, isSpace c = false) :
    strip (front ++ s ++ back) = s := by
  have leading : (front ++ s ++ back).dropWhile isSpace = (s ++ back).dropWhile isSpace := by
    rw [List.append_assoc, List.dropWhile_append_of_pos fun c mem =>
      blank c (List.mem_append_left _ mem)]
  rw [strip, leading]
  cases s with
  | nil =>
    rw [List.nil_append, List.dropWhile_eq_nil_iff.mpr fun c mem =>
      blank c (List.mem_append_right _ mem), List.rdropWhile_nil]
  | cons c s =>
    have solid : isSpace c = false := first c rfl
    rw [List.cons_append, List.dropWhile_cons_of_neg (by simp [solid]), ← List.cons_append]
    obtain ⟨s', d, ends⟩ := List.eq_nil_or_concat (c :: s) |>.resolve_left (by simp)
    have solid' : isSpace d = false := last d (by simp [ends])
    rw [ends, List.rdropWhile, List.reverse_append,
      List.dropWhile_append_of_pos fun c mem =>
        blank c (List.mem_append_right _ (List.mem_reverse.mp mem)),
      List.concat_eq_append, List.reverse_append, List.reverse_singleton, List.singleton_append,
      List.dropWhile_cons_of_neg (by simp [solid'])]
    simp

theorem words_intercalate {parts : List (List Char)}
    (solid : ∀ part ∈ parts, part ≠ [] ∧ ∀ c ∈ part, isSpace c = false) :
    words ([' '].intercalate parts) = parts := by
  cases parts with
  | nil => decide
  | cons part parts =>
    rw [intercalate_cons_eq]
    induction parts generalizing part with
    | nil =>
      obtain ⟨nonempty, word⟩ := solid part List.mem_cons_self
      simp [words, List.splitOnP_eq_singleton word, nonempty]
    | cons next parts ih =>
      obtain ⟨nonempty, word⟩ := solid part List.mem_cons_self
      have later := ih next fun p mem => solid p (List.mem_cons_of_mem _ mem)
      rw [words] at later
      rw [words, List.flatMap_cons, List.append_assoc, List.singleton_append,
        List.splitOnP_append_cons_of_forall_mem word ' ' rfl, List.filter_cons_of_pos (by simpa),
        later]

/-- A nonempty string of hexadecimal digits. -/
def IsHex (s : List Char) : Prop := s ≠ [] ∧ ∀ c ∈ s, (hexDigit c).isSome

instance (s : List Char) : Decidable (IsHex s) :=
  decidable_of_iff (s ≠ [] ∧ s.all (fun c => (hexDigit c).isSome) = true) (by simp [IsHex])

/-- The number that the digits denote. -/
def hexValue (s : List Char) : Nat := s.foldl (fun value c => 16 * value + (hexDigit c).getD 0) 0

theorem hexDigit_ne {c d : Char} (digit : (hexDigit c).isSome) (other : hexDigit d = none) :
    c ≠ d := by
  rintro rfl
  simp [other] at digit

theorem hexDigit_solid {c : Char} (digit : (hexDigit c).isSome) : isSpace c = false := by
  have ranges : 0x30 ≤ c.toNat ∧ c.toNat ≤ 0x66 := by
    dsimp only [hexDigit] at digit
    split_ifs at digit
    · omega
    · omega
    · omega
    · simp at digit
  simp [isSpace]
  omega

theorem hexDigits_cons {c : Char} (plain : c ≠ '_') (s : List Char) (value : Nat) :
    hexDigits value (c :: s) = (hexDigit c).bind fun digit => hexDigits (16 * value + digit) s := by
  rw [hexDigits]
  · rfl
  · exact fun _ _ same => absurd same plain

theorem hexDigits_eq {s : List Char} (digits : ∀ c ∈ s, (hexDigit c).isSome) (value : Nat) :
    hexDigits value s = some (s.foldl (fun value c => 16 * value + (hexDigit c).getD 0) value) := by
  induction s generalizing value with
  | nil => rfl
  | cons c s ih =>
    have here := digits c List.mem_cons_self
    obtain ⟨digit, value_eq⟩ := Option.isSome_iff_exists.mp here
    rw [hexDigits_cons (hexDigit_ne here (by decide)), value_eq, Option.bind_some,
      ih fun d mem => digits d (List.mem_cons_of_mem _ mem), List.foldl_cons, value_eq]
    rfl

theorem IsHex.solid {s : List Char} (hex : IsHex s) : ∀ c ∈ s, isSpace c = false :=
  fun c mem => hexDigit_solid (hex.2 c mem)

theorem IsHex.not_mem {s : List Char} (hex : IsHex s) {d : Char} (other : hexDigit d = none) :
    d ∉ s :=
  fun mem => hexDigit_ne (hex.2 d mem) other rfl

theorem IsHex.unsignedHex_eq {s : List Char} (hex : IsHex s) :
    unsignedHex s = some (hexValue s) := by
  obtain ⟨c, rest, rfl⟩ := List.exists_cons_of_ne_nil hex.1
  have plain : 'x' ∉ c :: rest ∧ 'X' ∉ c :: rest :=
    ⟨hex.not_mem (by decide), hex.not_mem (by decide)⟩
  obtain ⟨digit, here⟩ := Option.isSome_iff_exists.mp (hex.2 c List.mem_cons_self)
  have digits := hexDigits_eq (fun d mem => hex.2 d (List.mem_cons_of_mem _ mem)) digit
  have value : hexValue (c :: rest) =
      rest.foldl (fun value c => 16 * value + (hexDigit c).getD 0) digit := by
    rw [hexValue, List.foldl_cons, here]
    simp
  rw [unsignedHex, here, value]
  · exact digits
  all_goals
    intros
    simp_all

theorem IsHex.int16_eq {s : List Char} (hex : IsHex s) : int16 s = some (hexValue s : Int) := by
  have blank : ∀ c ∈ ([] : List Char), isSpace c = true := by simp
  have stripped := strip_append hex.solid blank
  obtain ⟨c, rest, rfl⟩ := List.exists_cons_of_ne_nil hex.1
  have plain : '-' ∉ c :: rest ∧ '+' ∉ c :: rest :=
    ⟨hex.not_mem (by decide), hex.not_mem (by decide)⟩
  rw [int16, ← List.append_nil (c :: rest), stripped]
  split
  · simp_all
  · simp_all
  · simp [hex.unsignedHex_eq]

/-! ### Numerals -/

/-- The digits of `n` to the base `base`. -/
def numeral (base n : Nat) : List Char :=
  if n = 0 then ['0'] else ((Nat.digits base n).map Nat.digitChar).reverse

/-- `hex(n)`. -/
def hex : Int → List Char
  | .ofNat n => '0' :: 'x' :: numeral 16 n
  | .negSucc n => '-' :: '0' :: 'x' :: numeral 16 (n + 1)

/-- `s.upper()`, for characters of ASCII. -/
def upper (s : List Char) : List Char := s.map Char.toUpper

/-- `s.zfill(width)`, for a text without a sign. -/
def zfill (s : List Char) (width : Nat) : List Char :=
  List.replicate (width - s.length) '0' ++ s

example : zfill (upper ((hex 0x1F6).drop 2)) 4 = "01F6".toList := by decide

theorem hexDigit_digitChar {d : Nat} (small : d < 16) :
    hexDigit (Nat.digitChar d) = some d ∧ hexDigit (Nat.digitChar d).toUpper = some d := by
  revert d
  decide

theorem numeral_eq {base n : Nat} (large : 1 < base) :
    ∃ digits : List Nat, numeral base n = digits.map Nat.digitChar ∧ digits ≠ [] ∧
      (∀ d ∈ digits, d < base) ∧ digits.foldl (fun value d => base * value + d) 0 = n ∧
      ∀ k, n < base ^ k → 0 < k → digits.length ≤ k := by
  by_cases zero : n = 0
  · subst zero
    exact ⟨[0], rfl, by simp, by simp; omega, by simp, fun k _ => id⟩
  · refine ⟨(Nat.digits base n).reverse, by rw [numeral, if_neg zero, List.map_reverse], ?_, ?_,
      ?_, ?_⟩
    · simpa using Nat.digits_ne_nil_iff_ne_zero.mpr zero
    · exact fun d mem => Nat.digits_lt_base large (List.mem_reverse.mp mem)
    · have value := Nat.ofDigits_digits base n
      rw [Nat.ofDigits_eq_foldr] at value
      simpa [List.foldl_reverse, Nat.add_comm] using value
    · intro k below _
      rw [List.length_reverse]
      exact (Nat.digits_length_le_iff large n).mpr below

theorem foldl_digits {base : Nat} {f : Nat → Char} (inverse : ∀ d < base, hexDigit (f d) = some d)
    {digits : List Nat} (below : ∀ d ∈ digits, d < base) (value : Nat) :
    (digits.map f).foldl (fun value c => base * value + (hexDigit c).getD 0) value =
      digits.foldl (fun value d => base * value + d) value := by
  induction digits generalizing value with
  | nil => rfl
  | cons d digits ih =>
    rw [List.map_cons, List.foldl_cons, List.foldl_cons, inverse d (below d List.mem_cons_self),
      ih fun e mem => below e (List.mem_cons_of_mem _ mem)]
    rfl

/-- `hex(n)[2:].upper()` is the number again. -/
theorem upper_numeral (n : Nat) : IsHex (upper (numeral 16 n)) ∧
    hexValue (upper (numeral 16 n)) = n ∧
    ∀ k, n < 16 ^ k → 0 < k → (upper (numeral 16 n)).length ≤ k := by
  obtain ⟨digits, written, nonempty, below, value, short⟩ :=
    numeral_eq (n := n) (by decide : 1 < 16)
  have shape : upper (numeral 16 n) = digits.map fun d => (Nat.digitChar d).toUpper := by
    rw [written, upper, List.map_map]
    rfl
  rw [shape]
  refine ⟨⟨by simpa using nonempty, ?_⟩, ?_, by simpa using short⟩
  · simp only [List.mem_map, forall_exists_index, and_imp]
    rintro c d mem rfl
    rw [(hexDigit_digitChar (below d mem)).2]
    rfl
  · exact (foldl_digits (fun d small => (hexDigit_digitChar small).2) below 0).trans value

theorem hexValue_zfill (s : List Char) (width : Nat) : hexValue (zfill s width) = hexValue s := by
  rw [zfill, hexValue, List.foldl_append]
  congr 1
  induction width - s.length with
  | zero => rfl
  | succ k ih => exact ih

theorem IsHex.zfill {s : List Char} (hex : IsHex s) (width : Nat) : IsHex (zfill s width) := by
  refine ⟨by simp [Python.zfill, hex.1], fun c mem => ?_⟩
  rcases List.mem_append.mp mem with zero | mem
  · rw [List.eq_of_mem_replicate zero]
    rfl
  · exact hex.2 c mem

theorem length_zfill {s : List Char} {width : Nat} (short : s.length ≤ width) :
    (zfill s width).length = width := by
  rw [zfill, List.length_append, List.length_replicate]
  omega

end LibCxxExt.ProofKit.Python
