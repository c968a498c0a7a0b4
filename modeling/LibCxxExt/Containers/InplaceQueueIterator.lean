import LibCxxExt.Containers.InplaceQueue
import Mathlib.Logic.Function.Iterate
import Mathlib.Tactic.Ring

/-! `inplace_queue::iterator` (`InplaceQueue.h`), whose index wraps around the ring. A range of two
iterators does not tell a full queue from an empty one, their difference does not wrap, and an
offset is reduced modulo the machine word before it is reduced modulo the capacity. -/

namespace LibCxxExt.Containers

open LibCxxExt.ProofKit

/-- An iterator refers to the queue object `queue`. -/
@[ext] structure QueueIterator (n : Capacity) where
  queue : Nat
  i : UInt64
deriving DecidableEq

namespace QueueIterator

variable {n : Capacity}

/-- `operator==`, for references to the same object. -/
def eq (lhs rhs : QueueIterator n) : Bool := lhs.queue == rhs.queue && lhs.i == rhs.i

def preInc (it : QueueIterator n) : QueueIterator n := { it with i := (it.i + 1) % n.value }

def preDec (it : QueueIterator n) : QueueIterator n :=
  { it with i := (it.i + n.value - 1) % n.value }

/-- `operator+(const iterator&, difference_type)`. The offset is converted to `size_t`. -/
def add (a : QueueIterator n) (b : Int64) : QueueIterator n :=
  ⟨a.queue, (a.i + b.toUInt64) % n.value⟩

/-- `operator+(difference_type, const iterator&)`. -/
def addLeft (a : Int64) (b : QueueIterator n) : QueueIterator n :=
  ⟨b.queue, (b.i + a.toUInt64) % n.value⟩

/-- `operator-(const iterator&, const iterator&)`; the negation of the least `ptrdiff_t` is
undefined. -/
def difference (a b : QueueIterator n) : Option Int64 :=
  if a.i > b.i then some (a.i - b.i).toInt64
  else if (b.i - a.i).toInt64 = Int64.minValue then none
  else some (-(b.i - a.i).toInt64)

/-- `operator-(const iterator&, difference_type)`. -/
def sub (a : QueueIterator n) (b : Int64) : QueueIterator n :=
  ⟨a.queue, (a.i + n.value - b.toUInt64) % n.value⟩

def addAssign (it : QueueIterator n) (b : Int64) : QueueIterator n :=
  { it with i := (it.i + b.toUInt64) % n.value }

def subAssign (it : QueueIterator n) (b : Int64) : QueueIterator n :=
  { it with i := (it.i + n.value - b.toUInt64) % n.value }

end QueueIterator

/-! ### Differences -/

theorem toInt_toInt64 (x : UInt64) :
    x.toInt64.toInt = if x.toNat < 2 ^ 63 then (x.toNat : Int) else x.toNat - 2 ^ 64 := by
  have cond := BitVec.toInt_eq_toNat_cond x.toBitVec
  rw [← UInt64.toBitVec_toInt64, Int64.toInt_toBitVec, UInt64.toBitVec_toInt64,
    UInt64.toNat_toBitVec] at cond
  rw [cond]
  split_ifs <;> omega

theorem toNat_toUInt64 (b : Int64) : (b.toUInt64.toNat : Int) = b.toInt % 2 ^ 64 := by
  have signed := toInt_toInt64 b.toUInt64
  have below := b.toUInt64.toNat_lt
  rw [Int64.toInt64_toUInt64] at signed
  split_ifs at signed <;> omega

theorem toInt_neg_of_ne {b : Int64} (negates : b ≠ Int64.minValue) : (-b).toInt = -b.toInt := by
  have above := b.le_toInt
  have below := b.toInt_lt
  have strict : b.toInt ≠ -2 ^ 63 := fun least => negates (Int64.toInt_inj.mp least)
  rw [Int64.toInt_neg, Int.bmod_eq_of_le (by omega) (by omega)]

namespace QueueIterator

variable {n : Capacity} {a b : QueueIterator n}

theorem difference_of_le (ordered : b.i.toNat ≤ a.i.toNat) :
    ∃ d, a.difference b = some d ∧ d.toInt =
      if a.i.toNat - b.i.toNat < 2 ^ 63 then (a.i.toNat : Int) - b.i.toNat
      else a.i.toNat - b.i.toNat - 2 ^ 64 := by
  have gap := UInt64.toNat_sub_of_le a.i b.i (UInt64.le_iff_toNat_le.mpr ordered)
  by_cases greater : a.i > b.i
  · refine ⟨_, if_pos greater, ?_⟩
    rw [toInt_toInt64, gap]
    split_ifs <;> omega
  · have same : a.i = b.i := by
      rw [gt_iff_lt, UInt64.lt_iff_toNat_lt] at greater
      exact UInt64.toNat_inj.mp (by omega)
    exact ⟨0, by simp [difference, same]; decide, by simp [same]⟩

theorem difference_val_of_le (ordered : b.i.toNat ≤ a.i.toNat) {d : Int64}
    (h : a.difference b = some d) : d.toInt =
      if a.i.toNat - b.i.toNat < 2 ^ 63 then (a.i.toNat : Int) - b.i.toNat
      else a.i.toNat - b.i.toNat - 2 ^ 64 := by
  obtain ⟨d', h', val⟩ := difference_of_le ordered
  rw [h] at h'
  rwa [Option.some.inj h']

theorem difference_of_lt (ordered : a.i.toNat < b.i.toNat) {d : Int64}
    (h : a.difference b = some d) : d.toInt =
      if b.i.toNat - a.i.toNat < 2 ^ 63 then (a.i.toNat : Int) - b.i.toNat
      else a.i.toNat - b.i.toNat + 2 ^ 64 := by
  have gap := UInt64.toNat_sub_of_le b.i a.i (UInt64.le_iff_toNat_le.mpr ordered.le)
  have behind : ¬ a.i > b.i := by
    rw [gt_iff_lt, UInt64.lt_iff_toNat_lt]
    omega
  rw [difference, if_neg behind] at h
  split_ifs at h with least
  rw [← Option.some.inj h, toInt_neg_of_ne least, toInt_toInt64, gap]
  split_ifs <;> omega

end QueueIterator

/-! ### The range of a queue -/

namespace InplaceQueue

variable {T : Type} {n : Capacity} {q : InplaceQueue T n} {held : List T} {self : Nat}

/-- `begin()` of the queue object `self`. -/
def beginIter (q : InplaceQueue T n) (self : Nat) : QueueIterator n := ⟨self, q.beginIndex⟩

def endIter (q : InplaceQueue T n) (self : Nat) : QueueIterator n := ⟨self, q.endIndex⟩

/-- What `*it` reads while `it` is incremented until it equals `last`. -/
def walk (q : InplaceQueue T n) (last : QueueIterator n) : Nat → QueueIterator n → Option (List T)
  | 0, _ => none
  | fuel + 1, it =>
    if it.eq last then some []
    else do
      let item ← q.readAt it.i
      return item :: (← q.walk last fuel it.preInc)

/-- The queue after the calls. -/
def after : InplaceQueue T n → List (QueueCall T) → Option (InplaceQueue T n)
  | q, [] => some q
  | q, c :: calls => do
    let (_, q) ← q.call c
    q.after calls

end InplaceQueue

/-- What a bounded queue holds after the calls. -/
def fifoAfter {T : Type} (n : Nat) (held : List T) (calls : List (QueueCall T)) : List T :=
  calls.foldl (fun held c => (fifoCall n held c).2) held

namespace InplaceQueue

variable {T : Type} {n : Capacity} {q : InplaceQueue T n} {held : List T} {self : Nat}

theorem after_holds (h : q.Holds held) (calls : List (QueueCall T)) :
    ∃ q', q.after calls = some q' ∧ q'.Holds (fifoAfter n.value.toNat held calls) := by
  induction calls generalizing q held with
  | nil => exact ⟨q, rfl, h⟩
  | cons c calls ih =>
    obtain ⟨q', called, holds⟩ := call_eq h c
    obtain ⟨last, reached, holds⟩ := ih holds
    exact ⟨last, by simp [after, called, reached], holds⟩

/-- The range from `begin()` to `end()` is the queue that holds `held`. -/
structure RangeIsQueue (q : InplaceQueue T n) (self : Nat) (held : List T) : Prop where
  size : q.size.toNat = held.length
  visits : ∃ fuel, q.walk (q.endIter self) fuel (q.beginIter self) = some held
  difference : ∃ d, (q.endIter self).difference (q.beginIter self) = some d ∧
    d.toInt = q.size.toNat

/-- In a queue that is not full, the end is met behind the last element. -/
theorem eq_endIter_iff (h : q.Holds held) (room : held.length < n.value.toNat) {k : Nat}
    {it : QueueIterator n} (same : it.queue = self)
    (slot : it.i.toNat = (q.beginIndex.toNat + k) % n.value.toNat) (within : k ≤ held.length) :
    it.eq (q.endIter self) = true ↔ k = held.length := by
  rw [QueueIterator.eq, Bool.and_eq_true, beq_iff_eq, beq_iff_eq, endIter, ← UInt64.toNat_inj,
    slot, h.behind]
  exact ⟨fun e => ring_injective (by omega) room e.2, fun e => ⟨same, by rw [e]⟩⟩

theorem walk_from (h : q.Holds held) (room : held.length < n.value.toNat) {k : Nat}
    {it : QueueIterator n} (same : it.queue = self)
    (slot : it.i.toNat = (q.beginIndex.toNat + k) % n.value.toNat) (within : k ≤ held.length) :
    q.walk (q.endIter self) (held.length - k + 1) it = some (held.drop k) := by
  have ends := eq_endIter_iff h room same slot within
  induction left : held.length - k generalizing k it with
  | zero =>
    rw [walk, if_pos (ends.mpr (by omega)), List.drop_of_length_le (by omega)]
  | succ left ih =>
    have inside : k < held.length := by omega
    have read : q.readAt it.i = some held[k] := by
      rw [← List.getElem?_eq_getElem inside, ← h.laidOut.slot k inside, ← slot]
      rfl
    have next : it.preInc.i.toNat = (q.beginIndex.toNat + (k + 1)) % n.value.toNat := by
      rw [QueueIterator.preInc, toNat_next (slot ▸ Nat.mod_lt _ (positive n)), slot,
        Nat.mod_add_mod, Nat.add_assoc]
    have same : it.preInc.queue = self := same
    have rest := ih same next inside (eq_endIter_iff h room same next inside) (by omega)
    rw [walk, if_neg (by rw [ends]; omega), read, List.drop_eq_getElem_cons inside]
    simp [rest]

theorem full_cases (h : q.Holds held) :
    q.full = true ∧ held.length = n.value.toNat ∧ q.endIndex.toNat = q.beginIndex.toNat ∨
      q.full = false ∧ held.length < n.value.toNat := by
  have fits := h.laidOut.fits
  rcases Bool.eq_false_or_eq_true q.full with full | notFull
  · have all := h.full.mp full
    exact .inl ⟨full, all, h.behind.trans (h.laidOut.behind_eq_first_iff.mpr (.inr all))⟩
  · have := mt h.full.mpr (by simp [notFull])
    exact .inr ⟨notFull, by omega⟩

/-- The difference of the ends is the size only where the elements do not reach around. -/
theorem RangeIsQueue.linear (h : q.Holds held) (range : RangeIsQueue q self held) :
    q.full = false ∧ q.beginIndex.toNat ≤ q.endIndex.toNat ∧ q.size.toNat < 2 ^ 63 := by
  obtain ⟨size, _, d, hd, d_size⟩ := range
  have inside := h.laidOut.inside
  have pos := positive n
  have below := n.value.toNat_lt
  rcases full_cases h with ⟨_, all, meets⟩ | ⟨notFull, room⟩
  · have d_val := QueueIterator.difference_val_of_le meets.ge hd
    simp only [endIter, beginIter] at d_val
    split_ifs at d_val <;> omega
  · refine ⟨notFull, ?_⟩
    rcases behind_cases h room with linear | ⟨around, wrapped⟩
    · have d_val := QueueIterator.difference_val_of_le
        (by simp only [endIter, beginIter]; omega) hd
      simp only [endIter, beginIter] at d_val
      split_ifs at d_val <;> omega
    · have d_val := QueueIterator.difference_of_lt wrapped hd
      simp only [endIter, beginIter] at d_val
      split_ifs at d_val <;> omega

/-- The range is the queue exactly when the elements do not reach around the end of the array and
number less than `2^63`. -/
theorem rangeIsQueue_iff (h : q.Holds held) : RangeIsQueue q self held ↔
    q.full = false ∧ q.beginIndex ≤ q.endIndex ∧ q.size.toNat < 2 ^ 63 := by
  rw [UInt64.le_iff_toNat_le]
  constructor
  · exact RangeIsQueue.linear h
  · rintro ⟨notFull, ordered, small⟩
    obtain ⟨_, room⟩ := (full_cases h).resolve_left (by simp [notFull])
    have size := size_eq h
    refine ⟨size, ⟨held.length + 1, ?_⟩, ?_⟩
    · have start : q.beginIndex.toNat = (q.beginIndex.toNat + 0) % n.value.toNat :=
        (Nat.mod_eq_of_lt h.laidOut.inside).symm
      exact walk_from h room rfl start (Nat.zero_le _)
    · obtain ⟨d, hd, d_val⟩ := QueueIterator.difference_of_le (a := q.endIter self)
        (b := q.beginIter self) ordered
      have := behind_cases h room
      refine ⟨d, hd, ?_⟩
      rw [d_val]
      simp only [endIter, beginIter]
      split_ifs <;> omega

/-- In every state that calls lead to, the range from `begin()` to `end()` is the queue unless the
elements reach around the end of the array. -/
theorem range_iff (n : Capacity) (calls : List (QueueCall T)) (self : Nat) :
    ∃ q, (init : InplaceQueue T n).after calls = some q ∧
      (RangeIsQueue q self (fifoAfter n.value.toNat [] calls) ↔
        q.full = false ∧ q.beginIndex ≤ q.endIndex ∧ q.size.toNat < 2 ^ 63) := by
  obtain ⟨q, reached, holds⟩ := after_holds holds_init calls
  exact ⟨q, reached, rangeIsQueue_iff holds⟩

/-- A full queue looks empty: its range visits nothing. -/
theorem range_ne_queue : ∃ q : InplaceQueue Nat ⟨1, by decide⟩,
    init.after [.enqueue 7] = some q ∧ q.size = 1 ∧
    q.walk (q.endIter 0) 1 (q.beginIter 0) = some [] ∧ ¬ RangeIsQueue q 0 [7] := by
  refine ⟨⟨#v[some 7], 0, 0, true⟩, rfl, rfl, rfl, ?_⟩
  rintro ⟨_, _, d, hd, d_size⟩
  obtain rfl : 0 = d := Option.some.inj hd
  exact absurd d_size (by decide)

end InplaceQueue

/-! ### Random access -/

namespace QueueIterator

variable {n : Capacity}

theorem add_i (it : QueueIterator n) (b : Int64) :
    ((it.add b).i.toNat : Int) = (it.i.toNat + b.toInt) % 2 ^ 64 % n.value.toNat := by
  have offset := toNat_toUInt64 b
  rw [add, UInt64.toNat_mod, UInt64.toNat_add]
  push_cast
  rw [offset]
  congr 1
  omega

theorem sub_i (it : QueueIterator n) (b : Int64) : ((it.sub b).i.toNat : Int) =
    (it.i.toNat + n.value.toNat - b.toInt) % 2 ^ 64 % n.value.toNat := by
  have offset := toNat_toUInt64 b
  have below := b.toUInt64.toNat_lt
  rw [sub, UInt64.toNat_mod, UInt64.toNat_sub, UInt64.toNat_add]
  push_cast
  rw [Nat.cast_sub below.le, offset]
  congr 1
  push_cast
  omega

theorem preInc_i (it : QueueIterator n) (inside : it.i.toNat < n.value.toNat) :
    (it.preInc.i.toNat : Int) = (it.i.toNat + 1) % n.value.toNat := by
  rw [preInc, InplaceQueue.toNat_next inside]
  push_cast
  rfl

theorem preDec_i (it : QueueIterator n) : (it.preDec.i.toNat : Int) =
    (it.i.toNat + n.value.toNat - 1) % 2 ^ 64 % n.value.toNat := by
  have one : it.sub 1 = it.preDec := rfl
  rw [← one, sub_i]
  rfl

theorem ext_toNat {a b : QueueIterator n} (queue : a.queue = b.queue)
    (i : (a.i.toNat : Int) = b.i.toNat) : a = b :=
  QueueIterator.ext queue (UInt64.toNat_inj.mp (by omega))

theorem preInc_iterate (it : QueueIterator n) (inside : it.i.toNat < n.value.toNat) (k : Nat) :
    (preInc^[k] it).queue = it.queue ∧
      ((preInc^[k] it).i.toNat : Int) = (it.i.toNat + k) % n.value.toNat := by
  induction k with
  | zero => simpa using (Int.emod_eq_of_lt (by omega) (by omega)).symm
  | succ k ih =>
    have pos : 0 < (n.value.toNat : Int) := Int.natCast_pos.mpr (InplaceQueue.positive n)
    have bound := Int.emod_lt_of_pos (it.i.toNat + k : Int) pos
    rw [Function.iterate_succ_apply']
    refine ⟨ih.1, ?_⟩
    rw [preInc_i _ (by omega), ih.2, Int.emod_add_emod, Nat.cast_succ, add_assoc]

/-- Where the decrements do not leave the range of a machine word, or need not. -/
theorem preDec_iterate (it : QueueIterator n) (inside : it.i.toNat < n.value.toNat) (k : Nat)
    (safe : (n.value.toNat : Int) ∣ 2 ^ 64 ∨ k ≤ it.i.toNat ∧ it.i.toNat + n.value.toNat ≤ 2 ^ 64) :
    (preDec^[k] it).queue = it.queue ∧
      ((preDec^[k] it).i.toNat : Int) = (it.i.toNat - k) % n.value.toNat := by
  induction k with
  | zero => simpa using (Int.emod_eq_of_lt (by omega) (by omega)).symm
  | succ k ih =>
    obtain ⟨queue, i⟩ := ih (safe.imp_right (by omega))
    have pos : 0 < (n.value.toNat : Int) := Int.natCast_pos.mpr (InplaceQueue.positive n)
    have below := n.value.toNat_lt
    have nonneg := Int.emod_nonneg (it.i.toNat - k : Int) pos.ne'
    have bound := Int.emod_lt_of_pos (it.i.toNat - k : Int) pos
    have fits : (n.value.toNat : Int) ∣ 2 ^ 64 ∨
        0 ≤ ((preDec^[k] it).i.toNat : Int) + n.value.toNat - 1 ∧
          ((preDec^[k] it).i.toNat : Int) + n.value.toNat - 1 < 2 ^ 64 := by
      refine safe.imp_right fun room => ?_
      rw [i, Int.emod_eq_of_lt (by omega) (by omega)]
      omega
    rw [Function.iterate_succ_apply']
    refine ⟨queue, ?_⟩
    rw [preDec_i, (emod_word_emod_iff (by omega) (by omega) (by omega) (by omega)).mpr fits, i,
      add_sub_right_comm, Int.add_emod_right, Int.emod_sub_emod, Nat.cast_succ, sub_sub]

/-- The offsets that keep every sum of the two operators within `[0, 2^64)`. -/
def InReach (n i b : Int) : Prop :=
  -i ≤ b ∧ b ≤ i + n ∧ i + b < 2 * n ∧ i + b < 2 ^ 64 ∧ i + n - b < 2 ^ 64 ∧
    (i + b < n → i + n < 2 ^ 64)

instance (n i b : Int) : Decidable (InReach n i b) := inferInstanceAs (Decidable (_ ∧ _))

theorem inReach_iff {n i b : Int} (nonneg : 0 ≤ i) (inside : i < n) : InReach n i b ↔
    (0 ≤ i + b ∧ i + b < 2 ^ 64) ∧ (0 ≤ i + n - b ∧ i + n - b < 2 ^ 64) ∧
      0 ≤ (i + b) % n + n - b ∧ (i + b) % n + n - b < 2 ^ 64 := by
  have low := Int.emod_nonneg (i + b) (show n ≠ 0 by omega)
  have high := Int.emod_lt_of_pos (i + b) (show 0 < n by omega)
  have once : 0 ≤ i + b → i + b < n → (i + b) % n = i + b := Int.emod_eq_of_lt
  have twice : n ≤ i + b → i + b < 2 * n → (i + b) % n = i + b - n := fun above below => by
    rw [← Int.sub_emod_right, Int.emod_eq_of_lt (by omega) (by omega)]
  have further : 2 * n ≤ i + b → (i + b) % n ≤ i + b - 2 * n := fun above => by
    have twofold : 2 ≤ (i + b) / n := Int.le_ediv_of_mul_le (by omega) above
    have product := Int.mul_le_mul_of_nonneg_left twofold (show 0 ≤ n by omega)
    have whole := Int.mul_ediv_add_emod (i + b) n
    omega
  rw [InReach]
  omega

/-- Random access by `b` is repeated stepping, and moves the index by `b` around the ring. -/
structure RandomAccess (it : QueueIterator n) (b : Int64) : Prop where
  steps : it.add b =
    if 0 ≤ b.toInt then preInc^[b.toInt.toNat] it else preDec^[(-b.toInt).toNat] it
  forth : ((it.add b).i.toNat : Int) = (it.i.toNat + b.toInt) % n.value.toNat
  back : ((it.sub b).i.toNat : Int) = (it.i.toNat - b.toInt) % n.value.toNat
  left : addLeft b it = it.add b
  assign : it.addAssign b = it.add b
  backAssign : it.subAssign b = it.sub b
  undo : (it.add b).sub b = it

theorem add_forth_iff (it : QueueIterator n) (inside : it.i.toNat < n.value.toNat) (b : Int64) :
    ((it.add b).i.toNat : Int) = (it.i.toNat + b.toInt) % n.value.toNat ↔
      (n.value.toNat : Int) ∣ 2 ^ 64 ∨
        0 ≤ it.i.toNat + b.toInt ∧ it.i.toNat + b.toInt < 2 ^ 64 := by
  have below := n.value.toNat_lt
  have low := b.le_toInt
  have high := b.toInt_lt
  rw [add_i]
  exact emod_word_emod_iff (by omega) (by omega) (by omega) (by omega)

theorem sub_back_iff (it : QueueIterator n) (inside : it.i.toNat < n.value.toNat) (b : Int64) :
    ((it.sub b).i.toNat : Int) = (it.i.toNat - b.toInt) % n.value.toNat ↔
      (n.value.toNat : Int) ∣ 2 ^ 64 ∨ 0 ≤ it.i.toNat + n.value.toNat - b.toInt ∧
        it.i.toNat + n.value.toNat - b.toInt < 2 ^ 64 := by
  have below := n.value.toNat_lt
  have low := b.le_toInt
  have high := b.toInt_lt
  have around := Int.add_emod_right (it.i.toNat - b.toInt) n.value.toNat
  rw [sub_i, ← around, ← add_sub_right_comm]
  exact emod_word_emod_iff (by omega) (by omega) (by omega) (by omega)

/-- An offset that lands where it should is as many steps. -/
theorem add_eq_steps {it : QueueIterator n} (inside : it.i.toNat < n.value.toNat) {b : Int64}
    (forth : ((it.add b).i.toNat : Int) = (it.i.toNat + b.toInt) % n.value.toNat)
    (safe : b.toInt < 0 → (n.value.toNat : Int) ∣ 2 ^ 64 ∨
      (-b.toInt).toNat ≤ it.i.toNat ∧ it.i.toNat + n.value.toNat ≤ 2 ^ 64) :
    it.add b =
      if 0 ≤ b.toInt then preInc^[b.toInt.toNat] it else preDec^[(-b.toInt).toNat] it := by
  split_ifs with sign
  · obtain ⟨queue, i⟩ := preInc_iterate it inside b.toInt.toNat
    refine ext_toNat queue.symm ?_
    rw [forth, i, Int.toNat_of_nonneg sign]
  · obtain ⟨queue, i⟩ := preDec_iterate it inside (-b.toInt).toNat (safe (not_le.mp sign))
    refine ext_toNat queue.symm ?_
    rw [forth, i, Int.toNat_of_nonneg (by omega), sub_neg_eq_add]

theorem randomAccess_iff (it : QueueIterator n) (inside : it.i < n.value) (b : Int64) :
    it.RandomAccess b ↔
      (n.value.toNat : Int) ∣ 2 ^ 64 ∨ InReach n.value.toNat it.i.toNat b.toInt := by
  rw [UInt64.lt_iff_toNat_lt] at inside
  have pos : 0 < (n.value.toNat : Int) := Int.natCast_pos.mpr (InplaceQueue.positive n)
  have landed := Int.emod_lt_of_pos (it.i.toNat + b.toInt) pos
  rw [inReach_iff (by omega) (by omega)]
  have undone (forth : ((it.add b).i.toNat : Int) = (it.i.toNat + b.toInt) % n.value.toNat) :=
    sub_back_iff (it.add b) (by omega) b
  constructor
  · intro access
    have forth := (add_forth_iff it inside b).mp access.forth
    have back := (sub_back_iff it inside b).mp access.back
    have undo := (undone access.forth).mp (by
      rw [access.undo, access.forth, Int.emod_sub_emod, Int.add_sub_cancel]
      exact (Int.emod_eq_of_lt (by omega) (by omega)).symm)
    rw [access.forth] at undo
    by_cases divides : (n.value.toNat : Int) ∣ 2 ^ 64
    · exact .inl divides
    · exact .inr ⟨forth.resolve_left divides, back.resolve_left divides,
        undo.resolve_left divides⟩
  · intro reach
    have forth := (add_forth_iff it inside b).mpr (reach.imp_right (·.1))
    have undo := (undone forth).mpr (by
      rw [forth]
      exact reach.imp_right (·.2.2))
    rw [forth, Int.emod_sub_emod, Int.add_sub_cancel, Int.emod_eq_of_lt (by omega) (by omega)]
      at undo
    have steps := add_eq_steps inside forth fun sign => reach.imp_right fun sums => by omega
    exact ⟨steps, forth, (sub_back_iff it inside b).mpr (reach.imp_right (·.2.1)), rfl, rfl, rfl,
      ext_toNat rfl undo⟩

theorem randomAccess_next : (⟨0, 0⟩ : QueueIterator ⟨3, by decide⟩).RandomAccess 1 :=
  (randomAccess_iff _ (by decide) 1).mpr (.inr (by decide))

/-- One step back from the first of three slots stays there, as three divides `2^64 - 1`. -/
theorem not_randomAccess : ∃ it : QueueIterator ⟨3, by decide⟩, it.i = 0 ∧
    (it.add (-1)).i = 0 ∧ it.preDec.i = 2 ∧ ¬ it.RandomAccess (-1) :=
  ⟨⟨0, 0⟩, rfl, by decide, by decide, fun access => absurd access.forth (by decide)⟩

end QueueIterator

end LibCxxExt.Containers
