import Lookaside.Proofs.Key
import Lookaside.Proofs.Operations
import Lookaside.Proofs.Table
import Lookaside.Proofs.Discharge

namespace Lookaside

variable {E : Type} [NumberedEntity E]

theorem Entity.renderId_ne_empty [LawfulNumbered E] (id : Int32) : Entity.renderId E id ≠ "" := by
  rw [LawfulNumbered.renderId_eq]
  exact renderNumber_ne_empty id

theorem Key.item_ok [LawfulNumbered E] (id : Int32) : ∃ key, Key.item E id = .ok key :=
  ⟨_, Key.item_ok_iff.2 ⟨Entity.renderId_ne_empty id, rfl⟩⟩

theorem Key.mapM_item [LawfulNumbered E] (ids : List Int32) :
    ∃ keys, ids.mapM (Key.item E) = .ok keys ∧
      List.Forall₂ (fun id key => Key.item E id = .ok key) ids keys := by
  have mapped := Key.mapM_item_of_texts fun id (_ : id ∈ ids) => Entity.renderId_ne_empty (E := E) id
  exact ⟨_, mapped, Key.mapM_item_iff.1 mapped⟩

namespace Table

/-- A table says what is stored under a key. -/
def Backs (t : Table E) (key : String) (value : Bytes) : Prop :=
  (key = Key.family E ∧ t.all = []) ∨
    ∃ id e, 0 < id ∧ Key.item E id = .ok key ∧ t.get id = some e ∧ Entity.encode e = .ok value

def Coherent (t : Table E) (s : Store) : Prop :=
  ∀ x ∈ s.entries, t.Backs x.key x.value

def Fresh (t : Table E) (s : Store) : Prop :=
  ∀ x ∈ s.entries, x.key ≠ Key.family E → t.Backs x.key x.value

variable {t : Table E} {s : Store}

theorem Coherent.fresh (h : t.Coherent s) : t.Fresh s :=
  fun x member _ => h x member

theorem coherent_nil (t : Table E) (capacity : Nat) : t.Coherent ⟨capacity, []⟩ := by
  intro x none
  cases none

theorem Coherent.touched {now : Nat} {s' : Store} (h : t.Coherent s) (touched : s.Touched now s') :
    t.Coherent s' :=
  fun x member => h x (touched.mem member)

variable [LawfulNumbered E]

theorem Backs.row {key : String} {value : Bytes} (h : t.Backs key value) {id : Int32}
    (keyed : Key.item E id = .ok key) : ∃ e, t.get id = some e ∧ Entity.encode e = .ok value := by
  rcases h with ⟨family, -⟩ | ⟨id', e, -, keyed', found, encoded⟩
  · exact absurd family (Key.item_ne_family keyed)
  · cases Key.item_injective DistinctIds.renderId_injective keyed' keyed
    exact ⟨e, found, encoded⟩

theorem decode?_eq {e : E} {value : Bytes} (encoded : Entity.encode e = .ok value) :
    Entity.decode? value = some e := by
  obtain ⟨bytes, encoded', decoded⟩ := LawfulNumbered.decode?_encode e
  cases encoded.symm.trans encoded'
  exact decoded

theorem Fresh.lookup? (h : t.Fresh s) {now : Nat} {id : Int32} {key : String}
    (keyed : Key.item E id = .ok key) {e : E}
    (found : (s.lookup? now key).bind Entity.decode? = some e) : t.get id = some e := by
  obtain ⟨value, stored, decoded⟩ := Option.bind_eq_some_iff.1 found
  obtain ⟨x, member, rfl, -, rfl⟩ := Store.lookup?_some stored
  obtain ⟨row, present, encoded⟩ := (h x member (Key.item_ne_family keyed)).row keyed
  rw [decode?_eq encoded] at decoded
  rw [present, decoded]

theorem Fresh.forall₂ (h : t.Fresh s) {now : Nat} {ids : List Int32} {keys : List String}
    {es : List E} (keyed : List.Forall₂ (fun id key => Key.item E id = .ok key) ids keys)
    (found : List.Forall₂ (fun key e => (s.lookup? now key).bind Entity.decode? = some e) keys es) :
    ids.filterMap t.get = es := by
  induction keyed generalizing es with
  | nil => cases found; rfl
  | cons keyed _ ih =>
      cases found with
      | cons found rest => rw [List.filterMap_cons, h.lookup? keyed found, ih rest]

omit [LawfulNumbered E] in
theorem Coherent.marker (h : t.Coherent s) {now : Nat} {value : Bytes}
    (found : s.lookup? now (Key.family E) = some value) : t.all = [] := by
  obtain ⟨x, member, same, -, -⟩ := Store.lookup?_some found
  rcases h x member with ⟨-, empty⟩ | ⟨id, e, -, keyed, -⟩
  · exact empty
  · exact absurd same (Key.item_ne_family keyed)

theorem Backs.listed {key : String} {value : Bytes} (h : t.Backs key value)
    (item : Key.isItem E key = true) {e : E} (decoded : Entity.decode? value = some e) :
    ∃ id, 0 < id ∧ Key.item E id = .ok key ∧ t.get id = some e := by
  rcases h with ⟨rfl, -⟩ | ⟨id, row, positive, keyed, found, encoded⟩
  · rw [Key.isItem_family] at item
    cases item
  · rw [decode?_eq encoded] at decoded
    exact ⟨id, positive, keyed, decoded ▸ found⟩

variable {entries : List (String × Bytes)}

theorem row_of_listed (h : ∀ x ∈ entries, x.1 ≠ Key.family E → t.Backs x.1 x.2) {e : E}
    (member : e ∈ Lookup.listed E entries) : ∃ id, 0 < id ∧ t.get id = some e := by
  obtain ⟨x, member, decoded⟩ := List.mem_filterMap.1 member
  obtain ⟨member, item⟩ := List.mem_filter.1 member
  obtain ⟨id, positive, -, found⟩ := (h x member (Key.ne_family_of_isItem item)).listed item decoded
  exact ⟨id, positive, found⟩

theorem nodup_listed (filed : t.Filed) (h : ∀ x ∈ entries, x.1 ≠ Key.family E → t.Backs x.1 x.2)
    (distinct : (entries.map (·.1)).Nodup) : (Lookup.listed E entries).Nodup := by
  rw [Lookup.listed, List.Nodup, List.pairwise_filterMap]
  rw [List.Nodup, List.pairwise_map] at distinct
  refine (distinct.sublist List.filter_sublist).imp_of_mem ?_
  intro x y hx hy different e decoded e' decoded' same
  obtain ⟨hx, item⟩ := List.mem_filter.1 hx
  obtain ⟨hy, item'⟩ := List.mem_filter.1 hy
  obtain ⟨id, -, keyed, found⟩ := (h x hx (Key.ne_family_of_isItem item)).listed item decoded
  obtain ⟨id', -, keyed', found'⟩ := (h y hy (Key.ne_family_of_isItem item')).listed item' decoded'
  -- one entity listed twice would lie under one key twice
  have one : id = id' := by rw [← filed found, ← filed found', same]
  subst one
  exact different (Except.ok.inj (keyed.symm.trans keyed'))

def Asks (t : Table E) : Change E → Prop
  | .store key e => ∃ id, 0 < id ∧ Key.item E id = .ok key ∧ t.get id = some e
  | .mark key => key = Key.family E ∧ t.all = []
  | .clear _ => True

theorem asks_stores (filed : t.Filed) {es : List E}
    (rows : ∀ e ∈ es, ∃ id, t.get id = some e) : ∀ change ∈ Policy.stores es, t.Asks change := by
  intro change member
  obtain ⟨e, here, key, cacheable, rfl⟩ := Policy.mem_stores member
  obtain ⟨identity, keyed⟩ := Policy.cacheKey?_some.1 cacheable
  obtain ⟨id, found⟩ := rows e here
  obtain rfl := filed found
  exact ⟨_, (LawfulNumbered.hasIdentity_iff e).1 identity, keyed, found⟩

theorem asks_collects {ρ : Type} (filed : t.Filed) (p : Policy ρ E) (ids : List Int32) :
    ∀ change ∈ p.collects ids.isEmpty (t.getMany ids), t.Asks change := by
  intro change member
  rcases p.mem_collects member with ⟨rfl, all, none_found, -⟩ | stored
  · cases List.isEmpty_iff.1 all
    exact ⟨rfl, none_found⟩
  · exact asks_stores filed (fun e member => exists_of_mem_getMany member) change stored

theorem backs_of_mem_make {deadline : Option Nat} {change : Change E} (asked : t.Asks change)
    {x : Entry} (member : x ∈ (change.make deadline s).entries) :
    t.Backs x.key x.value ∧ x.deadline = deadline ∨ x ∈ s.entries ∧ x.key ≠ change.key := by
  cases change with
  | store key e =>
      obtain ⟨id, positive, keyed, found⟩ := asked
      obtain ⟨value, encoded, -⟩ := LawfulNumbered.decode?_encode e
      rw [Change.make, encoded] at member
      rcases Store.mem_push member with rfl | old
      · exact .inl ⟨.inr ⟨id, e, positive, keyed, found, encoded⟩, rfl⟩
      · exact .inr old
  | mark key =>
      rcases Store.mem_push member with rfl | old
      · exact .inl ⟨.inl asked, rfl⟩
      · exact .inr old
  | clear key => exact .inr (Store.mem_erase.1 member)

/-- After changes that a table asks for, an entry is new and agrees with the table, or it is an old one that
none of them has touched. -/
theorem backs_of_mem_foldl {deadline : Option Nat} {changes : List (Change E)}
    (asked : ∀ change ∈ changes, t.Asks change) {x : Entry}
    (member : x ∈ (changes.foldl (Change.make deadline) s).entries) :
    t.Backs x.key x.value ∧ x.deadline = deadline ∨
      x ∈ s.entries ∧ x.key ∉ changes.map Change.key := by
  induction changes generalizing s with
  | nil => exact .inr ⟨member, List.not_mem_nil⟩
  | cons change changes ih =>
      rw [List.forall_mem_cons] at asked
      rcases ih asked.2 member with new | ⟨between, untouched⟩
      · exact .inl new
      · refine (backs_of_mem_make asked.1 between).imp_right fun ⟨old, other⟩ => ⟨old, ?_⟩
        rw [List.map_cons, List.mem_cons, not_or]
        exact ⟨other, untouched⟩

end Table

end Lookaside
