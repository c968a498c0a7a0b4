import Mathlib.Data.Fintype.Card
import Mathlib.Data.Multiset.AddSub
import Mathlib.Logic.Function.Basic

/-! Multisets in which elements are replaced one at a time, and the multiset of the values of a
function on a finite type, in which an update of the function replaces one element. -/

namespace LibCxxExt.ProofKit

variable {ι α : Type*}

/-- `m'` is `m` with one occurrence of `a` replaced by `b` for each `(a, b)` of the list, in turn.
-/
inductive Replaces (m : Multiset α) : List (α × α) → Multiset α → Prop
  | none : Replaces m [] m
  | one {done : List (α × α)} {a : α} (b : α) {rest : Multiset α} :
    Replaces m done (a ::ₘ rest) → Replaces m (done ++ [(a, b)]) (b ::ₘ rest)

theorem coe_concat (l : List α) (a : α) :
    ((l ++ [a] : List α) : Multiset α) = a ::ₘ (l : Multiset α) := by
  rw [Multiset.cons_coe, Multiset.coe_eq_coe]
  exact List.perm_append_singleton a l

/-- In the balance, what was replaced left and what replaced it came. -/
theorem Replaces.balance {m m' : Multiset α} {done : List (α × α)} (h : Replaces m done m') :
    m' + (done.map Prod.fst : Multiset α) = m + (done.map Prod.snd : Multiset α) := by
  induction h with
  | none => simp
  | @one done a b rest _ ih =>
    rw [List.map_append, List.map_append]
    calc b ::ₘ rest + ((done.map Prod.fst ++ [a] : List α) : Multiset α)
        = b ::ₘ (a ::ₘ rest + (done.map Prod.fst : Multiset α)) := by
          rw [coe_concat, Multiset.cons_add, Multiset.add_cons, Multiset.cons_add]
      _ = m + b ::ₘ (done.map Prod.snd : Multiset α) := by rw [ih, Multiset.add_cons]
      _ = m + ((done.map Prod.snd ++ [b] : List α) : Multiset α) := by rw [coe_concat]

section Values

variable [Fintype ι]

def values (f : ι → α) : Multiset α := Finset.univ.val.map f

theorem values_const (a : α) :
    values (fun _ : ι => a) = Multiset.replicate (Fintype.card ι) a :=
  Multiset.map_const' _ _

theorem values_update [DecidableEq ι] (f : ι → α) (i : ι) (b : α) :
    ∃ rest, values f = f i ::ₘ rest ∧ values (Function.update f i b) = b ::ₘ rest := by
  have split : (Finset.univ : Finset ι).val = i ::ₘ (Finset.univ.erase i).val := by
    rw [← Finset.insert_val_of_notMem (Finset.notMem_erase i _),
      Finset.insert_erase (Finset.mem_univ i)]
  refine ⟨(Finset.univ.erase i).val.map f, ?_, ?_⟩
  · rw [values, split, Multiset.map_cons]
  · rw [values, split, Multiset.map_cons, Function.update_self]
    refine congrArg _ (Multiset.map_congr rfl fun j hj => ?_)
    exact Function.update_of_ne (Finset.ne_of_mem_erase hj) _ _

theorem Replaces.update [DecidableEq ι] {m : Multiset α} {done : List (α × α)} {f : ι → α}
    (h : Replaces m done (values f)) (i : ι) (b : α) :
    Replaces m (done ++ [(f i, b)]) (values (Function.update f i b)) := by
  obtain ⟨rest, before, after⟩ := values_update f i b
  rw [after]
  exact .one b (before ▸ h)

end Values

end LibCxxExt.ProofKit
