import LibCxxExt.Text.CaseTables
import LibCxxExt.Text.CasingTranscode

/-! Folding is idempotent: what folding writes is folded to itself, in every language, and so is the
replacement character. -/

namespace LibCxxExt.Text

open LibCxxExt.ProofKit

/-- What folding writes is folded to itself in the same language, as it is read back. -/
theorem foldMapping_fixed {c d : UInt32} {lang : List UInt8} (written : d ∈ foldMapping c lang) :
    foldMapping (replaceInvalid d) lang = [replaceInvalid d] := by
  have same (c : UInt32) : foldMapping c lang = foldTables.mapping c lang {} {} := rfl
  rw [same] at written ⊢
  have replacement : foldTables.mapping 0xFFFD lang {} {} = [0xFFFD] :=
    CaseTables.mapping_of_image foldTables_stable List.mem_cons_self
  have fixed : foldTables.mapping d lang {} {} = [d] := by
    rcases CaseTables.mem_mapping written with ⟨rfl, unmapped⟩ | image
    · exact CaseTables.mapping_of_unmapped foldTables_stable unmapped
    · exact CaseTables.mapping_of_image foldTables_stable image
  unfold replaceInvalid
  split_ifs <;> assumption

theorem flatMap_map_of_fixed {α β : Type} {f : α → List α} {g : β → α} {written : List β}
    (fixed : ∀ d ∈ written, f (g d) = [g d]) : (written.map g).flatMap f = written.map g := by
  induction written with
  | nil => rfl
  | cons d rest ih =>
    rw [List.map_cons, List.flatMap_cons, fixed d List.mem_cons_self,
      ih fun e member => fixed e (List.mem_cons_of_mem _ member), List.singleton_append]

/-- A text that was folded is folded to itself. -/
theorem folded_folded (T : Encoding) (s : List T.Unit) (lang : List UInt8) :
    ∃ t, folded s lang = some t ∧ folded t lang = some t := by
  refine ⟨_, folded_eq s lang, ?_⟩
  have fixed : ∀ d ∈ (decoded s).flatMap (foldMapping · lang),
      foldMapping (replaceInvalid d) lang = [replaceInvalid d] := by
    intro d written
    obtain ⟨c, -, mapped⟩ := List.mem_flatMap.mp written
    exact foldMapping_fixed mapped
  rw [folded_eq, decoded_encodeAll, flatMap_map_of_fixed fixed, encodeAll_map_replaceInvalid]

end LibCxxExt.Text
