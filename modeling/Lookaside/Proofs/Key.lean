import Lookaside.Key
import Lookaside.Entity
import Mathlib.Data.List.Forall2

namespace Lookaside.Key

variable {E I : Type} [Entity E I]

theorem item_ok_iff {id : I} {key : String} :
    item E id = .ok key ↔ Entity.renderId E id ≠ "" ∧ family E ++ Entity.renderId E id = key := by
  rw [item]
  split
  · next empty => simp [empty]
  · next h => simp [h]

theorem item_ne_family {id : I} {key : String} (h : item E id = .ok key) : key ≠ family E := by
  obtain ⟨text, rfl⟩ := item_ok_iff.1 h
  intro same
  exact text (String.append_right_inj _ |>.1 (same.trans (String.append_empty).symm))

theorem mapM_item_iff {ids : List I} {keys : List String} :
    ids.mapM (item E) = .ok keys ↔ List.Forall₂ (fun id key => item E id = .ok key) ids keys := by
  induction ids generalizing keys with
  | nil => cases keys <;> simp [pure, Except.pure]
  | cons id ids ih =>
      rw [List.mapM_cons]
      cases keyed : item E id with
      | error error =>
          refine ⟨nofun, fun h => ?_⟩
          cases h with
          | cons found _ => cases keyed.symm.trans found
      | ok key =>
          cases mapped : ids.mapM (item E) with
          | error error =>
              refine ⟨nofun, fun h => ?_⟩
              cases h with
              | cons _ rest => cases mapped.symm.trans (ih.2 rest)
          | ok keys' =>
              constructor
              · rintro ⟨⟩
                exact .cons keyed (ih.1 mapped)
              · rintro (_ | ⟨found, rest⟩)
                cases keyed.symm.trans found
                cases mapped.symm.trans (ih.2 rest)
                rfl

theorem mapM_item_of_texts {ids : List I} (texts : ∀ id ∈ ids, Entity.renderId E id ≠ "") :
    ids.mapM (item E) = .ok (ids.map fun id => family E ++ Entity.renderId E id) := by
  refine mapM_item_iff.2 (List.forall₂_map_right_iff.2 (List.forall₂_same.2 ?_))
  exact fun id member => item_ok_iff.2 ⟨texts id member, rfl⟩

theorem item_injective (inj : Function.Injective (Entity.renderId E : I → String)) {a b : I}
    {key : String} (ha : item E a = .ok key) (hb : item E b = .ok key) : a = b := by
  obtain ⟨-, rfl⟩ := item_ok_iff.1 ha
  obtain ⟨-, same⟩ := item_ok_iff.1 hb
  exact inj ((String.append_right_inj _).1 same).symm

theorem isItem_iff {key : String} :
    isItem E key = true ↔ ∃ rest, rest ≠ "" ∧ family E ++ rest = key := by
  simp only [isItem, Bool.and_eq_true, List.isPrefixOf_iff_prefix, decide_eq_true_eq]
  constructor
  · rintro ⟨⟨rest, h⟩, other⟩
    have whole : family E ++ String.ofList rest = key := by
      rw [← String.toList_inj, String.toList_append, String.toList_ofList, h]
    refine ⟨String.ofList rest, ?_, whole⟩
    intro empty
    rw [empty, String.append_empty] at whole
    exact other whole.symm
  · rintro ⟨rest, some_rest, rfl⟩
    refine ⟨⟨rest.toList, String.toList_append.symm⟩, ?_⟩
    intro same
    exact some_rest ((String.append_right_inj _).1 (same.trans String.append_empty.symm))

theorem isItem_item {id : I} {key : String} (h : item E id = .ok key) : isItem E key = true :=
  isItem_iff.2 ⟨_, item_ok_iff.1 h⟩

theorem isItem_of_mapM {ids : List I} {keys : List String} (mapped : ids.mapM (item E) = .ok keys) :
    ∀ key ∈ keys, isItem E key = true := by
  induction mapM_item_iff.1 mapped with
  | nil => exact nofun
  | cons keyed rest ih => exact List.forall_mem_cons.2 ⟨isItem_item keyed, ih (mapM_item_iff.2 rest)⟩

theorem isItem_family : isItem E (family E) = false := by
  simp [isItem]

theorem ne_family_of_isItem {key : String} (h : isItem E key = true) : key ≠ family E := by
  rintro rfl
  rw [isItem_family] at h
  cases h

end Lookaside.Key
