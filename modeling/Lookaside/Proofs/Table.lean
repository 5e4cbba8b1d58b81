import Lookaside.Proofs.Entity
import Lookaside.Table
import Mathlib.Data.List.Nodup
import Std.Data.TreeMap.Lemmas

namespace Lookaside.Table

variable {E : Type}

@[simp] theorem get_empty (id : Int32) : (empty : Table E).get id = none :=
  Std.TreeMap.getElem?_emptyc

theorem contains_eq (t : Table E) (id : Int32) : t.contains id = (t.get id).isSome :=
  Std.TreeMap.contains_eq_isSome_getElem?

theorem mem_all {t : Table E} {e : E} : e ∈ t.all ↔ ∃ id, t.get id = some e := by
  simp only [all, get, List.mem_map, Prod.exists, Std.TreeMap.mem_toList_iff_getElem?_eq_some,
    exists_eq_right]

theorem length_all (t : Table E) : t.all.length = t.count := by
  rw [all, List.length_map, count, Std.TreeMap.length_toList]

theorem exists_of_mem_getMany {t : Table E} {ids : List Int32} {e : E} (h : e ∈ t.getMany ids) :
    ∃ id, t.get id = some e := by
  rw [getMany] at h
  split at h
  · exact mem_all.1 h
  · obtain ⟨id, -, found⟩ := List.mem_filterMap.1 h
    exact ⟨id, found⟩

theorem mem_getMany {t : Table E} {ids : List Int32} (some_ids : ids ≠ []) {e : E} :
    e ∈ t.getMany ids ↔ ∃ id ∈ ids, t.get id = some e := by
  rw [getMany, if_neg (by simpa using some_ids), List.mem_filterMap]

theorem get_erase (t : Table E) (id id' : Int32) :
    ({ t with rows := t.rows.erase id } : Table E).get id' = if id = id' then none else t.get id' := by
  simp only [get, Std.TreeMap.getElem?_erase, Std.compare_eq_iff_eq]

variable [NumberedEntity E]

theorem get_put (t : Table E) (e : E) (id : Int32) :
    (t.put e).get id = if Entity.id e = id then some e else t.get id := by
  simp only [put, get, Std.TreeMap.getElem?_insert, Std.compare_eq_iff_eq]

def creates (e : E) : Bool :=
  (NumberedEntity.validate e).isOk && !Entity.hasIdentity e

def Filed (t : Table E) : Prop := ∀ ⦃id e⦄, t.get id = some e → Entity.id e = id

structure Sound (spare : Nat) (t : Table E) : Prop where
  own : ∀ {id e}, t.get id = some e → Entity.id e = id
  positive : ∀ {id e}, t.get id = some e → 0 < id
  next : 0 < t.nextId.toInt
  room : t.nextId.toInt + spare ≤ 2147483647

theorem sound_empty {spare : Nat} (few : spare < 2147483647) : (empty : Table E).Sound spare where
  own h := by simp at h
  positive h := by simp at h
  next := by
    have first : (empty : Table E).nextId.toInt = 1 := rfl
    omega
  room := by
    have first : (empty : Table E).nextId.toInt = 1 := rfl
    omega

theorem save_cases (t : Table E) (e : E) :
    (∃ error, t.save e = (.error error, t)) ∨
      (Entity.hasIdentity e = true ∧ t.contains (Entity.id e) = true ∧ t.save e = (.ok e, t.put e)) ∨
      (creates e = true ∧ t.save e = (.ok (NumberedEntity.withId t.nextId e),
        ({ t with nextId := t.nextId + 1 } : Table E).put (NumberedEntity.withId t.nextId e))) := by
  rw [save, creates]
  split
  · exact .inl ⟨_, rfl⟩
  · next valid =>
      split
      · next identity =>
          split
          · next present => exact .inr (.inl ⟨identity, present, rfl⟩)
          · exact .inl ⟨_, rfl⟩
      · next identity => exact .inr (.inr ⟨by simp [valid, identity, Except.isOk, Except.toBool], rfl⟩)

theorem delete_cases (t : Table E) (e : E) :
    (∃ error, t.delete e = (.error error, t)) ∨
      t.delete e = (.ok (), { t with rows := t.rows.erase (Entity.id e) }) := by
  rw [delete]
  split
  · exact .inr rfl
  · exact .inl ⟨_, rfl⟩

theorem written (t : Table E) (e : E) :
    (∃ error, t.save e = (.error error, t)) ∨
      ∃ (e' : E) (n : Int32), t.save e = (.ok e', ({ t with nextId := n } : Table E).put e') := by
  rcases t.save_cases e with error | ⟨-, -, saved⟩ | ⟨-, saved⟩
  · exact .inl error
  · exact .inr ⟨e, t.nextId, saved⟩
  · exact .inr ⟨_, _, saved⟩

theorem filed_empty : (empty : Table E).Filed := by
  intro id e found
  rw [get_empty] at found
  cases found

namespace Filed

variable {t : Table E}

theorem own_row (h : t.Filed) {row : Int32 × E} (member : row ∈ t.rows.toList) : Entity.id row.2 = row.1 :=
  h (Std.TreeMap.mem_toList_iff_getElem?_eq_some.1 member)

theorem sorted_all (h : t.Filed) : t.all.Pairwise fun a b => Entity.id a < Entity.id b := by
  rw [all, List.pairwise_map]
  refine Std.TreeMap.ordered_keys_toList.imp_of_mem ?_
  intro a b ha hb before
  rw [h.own_row ha, h.own_row hb]
  exact Std.compare_eq_lt.1 before

theorem nodup_all (h : t.Filed) : t.all.Nodup := by
  refine h.sorted_all.imp fun {a b} lt same => ?_
  rw [same] at lt
  exact Int32.lt_irrefl lt

theorem put (h : t.Filed) (e : E) : (t.put e).Filed := by
  intro id row found
  rw [get_put] at found
  split at found
  · next same => cases found; exact same
  · exact h found

theorem erase (h : t.Filed) (id : Int32) : ({ t with rows := t.rows.erase id } : Table E).Filed := by
  intro id' row found
  rw [get_erase] at found
  split at found
  · cases found
  · exact h found

theorem save (h : t.Filed) (e : E) : (t.save e).2.Filed := by
  rcases t.written e with ⟨error, saved⟩ | ⟨e', n, saved⟩
  · rw [saved]
    exact h
  · have renumbered : ({ t with nextId := n } : Table E).Filed := h
    rw [saved]
    exact renumbered.put e'

theorem delete (h : t.Filed) (e : E) : (t.delete e).2.Filed := by
  rcases t.delete_cases e with ⟨error, deleted⟩ | deleted
  · rw [deleted]
    exact h
  · rw [deleted]
    exact h.erase _

end Filed

namespace Sound

variable {spare : Nat} {t : Table E}

theorem filed (h : t.Sound spare) : t.Filed := fun _ _ found => h.own found

theorem mono (h : t.Sound spare) {less : Nat} (le : less ≤ spare) : t.Sound less :=
  ⟨h.own, h.positive, h.next, by have := h.room; omega⟩

theorem put (h : t.Sound spare) {e : E} (positive : 0 < Entity.id e) : (t.put e).Sound spare where
  own {id row} found := h.filed.put e found
  positive {id row} found := by
    rw [get_put] at found
    split at found
    · next same => exact same ▸ positive
    · exact h.positive found
  next := h.next
  room := h.room

theorem save [LawfulNumbered E] {e : E} (h : t.Sound (spare + if creates e then 1 else 0)) :
    (t.save e).2.Sound spare := by
  have enough : t.Sound spare := h.mono (Nat.le_add_right _ _)
  rcases t.save_cases e with ⟨error, saved⟩ | ⟨identity, -, saved⟩ | ⟨new, saved⟩
  · rw [saved]
    exact enough
  · rw [saved]
    exact enough.put ((LawfulNumbered.hasIdentity_iff e).1 identity)
  · rw [saved]
    have next := h.next
    have room := h.room
    rw [if_pos new] at room
    -- the counter does not wrap around
    have after : (t.nextId + 1).toInt = t.nextId.toInt + 1 := by
      rw [Int32.toInt_add, Int32.toInt_one]
      exact Int.bmod_eq_of_le (by omega) (by omega)
    have advanced : ({ t with nextId := t.nextId + 1 } : Table E).Sound spare := by
      refine ⟨h.own, h.positive, ?_, ?_⟩ <;> dsimp only <;> omega
    refine advanced.put ?_
    rw [LawfulNumbered.id_withId, Int32.lt_iff_toInt_lt]
    exact next

theorem delete (h : t.Sound spare) (e : E) : (t.delete e).2.Sound spare := by
  rcases t.delete_cases e with ⟨error, deleted⟩ | deleted
  · rw [deleted]
    exact h
  · rw [deleted]
    refine ⟨fun {id row} found => h.filed.erase _ found, ?_, h.next, h.room⟩
    · intro id row found
      rw [get_erase] at found
      split at found
      · cases found
      · exact h.positive found

end Sound

end Lookaside.Table
