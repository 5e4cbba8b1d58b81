import Lookaside.CachedRepository
import Lookaside.Proofs.Coherence

namespace Lookaside

variable {E : Type} [NumberedEntity E]

namespace Table

/-- Changes of the cache that go with a change of a table. -/
structure Accounts (t t' : Table E) (changes : List (Change E)) : Prop where
  asked : ∀ change ∈ changes, t'.Asks change
  rows : ∀ {id key}, 0 < id → Key.item E id = .ok key → key ∉ changes.map Change.key → t'.get id = t.get id
  empty : Key.family E ∉ changes.map Change.key → t.all = [] → t'.all = []

variable {t t' : Table E} {changes : List (Change E)}

theorem accounts_of_asked (asked : ∀ change ∈ changes, t.Asks change) : t.Accounts t changes :=
  ⟨asked, fun _ _ _ => rfl, fun _ empty => empty⟩

theorem accounts_nil (t : Table E) : t.Accounts t [] :=
  accounts_of_asked (List.forall_mem_nil _)

theorem Accounts.backs (h : t.Accounts t' changes) {key : String} {value : Bytes}
    (untouched : key ∉ changes.map Change.key) (backed : t.Backs key value) : t'.Backs key value := by
  rcases backed with ⟨rfl, no_rows⟩ | ⟨id, e, positive, keyed, found, encoded⟩
  · exact .inl ⟨rfl, h.empty untouched no_rows⟩
  · exact .inr ⟨id, e, positive, keyed, (h.rows positive keyed untouched).trans found, encoded⟩

theorem Accounts.coherent_foldl [LawfulNumbered E] {s : Store} (h : t.Accounts t' changes)
    (coherent : t.Coherent s) (deadline : Option Nat) :
    t'.Coherent (changes.foldl (Change.make deadline) s) := by
  intro x member
  rcases backs_of_mem_foldl h.asked member with ⟨backed, -⟩ | ⟨old, untouched⟩
  · exact backed
  · exact h.backs untouched (coherent x old)

theorem accounts_written {e : E}
    (named : ∀ key, 0 < Entity.id e → Key.item E (Entity.id e) = .ok key → key ∈ changes.map Change.key)
    (family : Key.family E ∈ changes.map Change.key) (asked : ∀ change ∈ changes, t'.Asks change)
    (others : ∀ id, Entity.id e ≠ id → t'.get id = t.get id) : t.Accounts t' changes where
  asked := asked
  rows := by
    intro id key positive keyed untouched
    refine others id ?_
    rintro rfl
    exact untouched (named key positive keyed)
  empty untouched := absurd family untouched

end Table

structure Accounted {α : Type} (w : World (Table E)) (r : Outcome (World (Table E)) (Note Int32) (Deferred E α))
    (t : Table E) : Prop where
  keeper : r.state.keeper = t
  accounts : w.keeper.Accounts t r.value.outbox.changes

variable [LawfulNumbered E] {w : World (Table E)}

open CachedRepository

theorem accounted_get (p : Policy (Table E) E) (filed : w.keeper.Filed) (id : Int32) :
    Accounted w ((p.get id Table.repository.get).run w) w.keeper := by
  obtain ⟨key, keyed⟩ := Key.item_ok (E := E) id
  cases found : (w.link.value? key).bind (Entity.decode? (E := E)) with
  | some e =>
      obtain ⟨value, state⟩ := Policy.get_of_hit keyed p Table.repository.get found
      refine ⟨?_, ?_⟩
      · rw [state, (Lookup.looksUp_one key).keeper]
      · rw [value]
        exact Table.accounts_nil _
  | none =>
      obtain ⟨value, state, -⟩ := Policy.get_of_miss keyed p Table.repository.get found
      refine ⟨by rw [state]; rfl, ?_⟩
      rw [value, show (Table.repository.get id w.keeper).1 = .ok (w.keeper.get id) from rfl]
      cases row : w.keeper.get id with
      | none => exact Table.accounts_nil _
      | some e =>
          rw [Policy.fetched]
          split
          · next identity =>
              refine Table.accounts_of_asked (List.forall_mem_singleton.2 ?_)
              exact ⟨id, filed row ▸ (LawfulNumbered.hasIdentity_iff e).1 identity, keyed, row⟩
          · exact Table.accounts_nil _

theorem keeper_contains (id : Int32) :
    ((Policy.contains E id Table.repository.contains).run w).state.keeper = w.keeper := by
  obtain ⟨key, keyed⟩ := Key.item_ok (E := E) id
  cases found : (w.link.value? key).bind (Entity.decode? (E := E)) with
  | some e =>
      rw [(Policy.contains_of_hit keyed Table.repository.contains found).2]
      exact (Lookup.looksUp_one key).keeper w
  | none =>
      rw [(Policy.contains_of_miss keyed Table.repository.contains found).2.1]
      rfl

section

variable {p : Policy (Table E) E}
  (still : ∀ counter, p.counter? = some counter → ∀ k, (counter k).2 = k) {ids : List Int32}
include still

omit [LawfulNumbered E] in
theorem value_getMany_of_miss (missed : ((p.readCached ids).run w).value = .ok none) :
    ((p.getMany ids fun ids => present (Table.repository.getMany ids)).run w).value =
      p.scheduled (p.collects ids.isEmpty (w.keeper.getMany ids)) (.ok (w.keeper.getMany ids)) := by
  have all : ((w.keeper.getMany ids).map some).filterMap id = w.keeper.getMany ids := by
    rw [List.filterMap_map]
    exact List.filterMap_some
  rw [(Policy.getMany_of_miss missed _).1, Policy.keeper_readCached still,
    show (present (Table.repository.getMany ids) w.keeper).1 =
      .ok ((w.keeper.getMany ids).map some) from rfl, Policy.collected, all]

theorem accounted_getMany (filed : w.keeper.Filed) (ids : List Int32) :
    Accounted w ((p.getMany ids fun ids => present (Table.repository.getMany ids)).run w) w.keeper := by
  have keeper := Policy.keeper_readCached still ids w
  cases cached : ((p.readCached ids).run w).value with
  | error error =>
      rw [Policy.getMany_of_error cached]
      exact ⟨keeper, Table.accounts_nil _⟩
  | ok found =>
      cases found with
      | some es =>
          rw [Policy.getMany_of_hit cached]
          exact ⟨keeper, Table.accounts_nil _⟩
      | none =>
          refine ⟨by rw [(Policy.getMany_of_miss cached _).2.1]; exact keeper, ?_⟩
          rw [value_getMany_of_miss still cached]
          exact Table.accounts_of_asked (Table.asks_collects filed p ids)

end

theorem accounted_save (p : Policy (Table E) E) (filed : w.keeper.Filed) (e : E) :
    Accounted w ((p.save e (Table.repository.save e)).run w) (w.keeper.save e).2 := by
  refine ⟨by rw [Policy.state_save]; rfl, ?_⟩
  rw [Policy.value_save, show (Table.repository.save e w.keeper).1 = (w.keeper.save e).1 from rfl]
  have filed' := filed.save e
  rcases w.keeper.written e with ⟨error, saved⟩ | ⟨e', n, saved⟩ <;> rw [saved] at filed' ⊢
  · -- no row was written, and to forget one is always right
    refine Table.accounts_of_asked fun change member => ?_
    cases List.mem_append.1 member with
    | inl item =>
        obtain ⟨key, -, rfl⟩ := Policy.mem_clears item
        trivial
    | inr family =>
        cases List.mem_singleton.1 family
        trivial
  · rw [Policy.saved]
    have row : (({ w.keeper with nextId := n } : Table E).put e').get (Entity.id e') = some e' := by
      rw [Table.get_put, if_pos rfl]
    refine Table.accounts_written (e := e') ?_ ?_ ?_ ?_
    · intro key positive keyed
      have identity := (LawfulNumbered.hasIdentity_iff e').2 positive
      rw [Policy.stores_singleton (Policy.cacheKey?_some.2 ⟨identity, keyed⟩)]
      exact List.mem_cons_self
    · exact List.mem_map_of_mem (List.mem_append_right _ List.mem_cons_self)
    · intro change member
      cases List.mem_append.1 member with
      | inl item => exact Table.asks_stores filed' (List.forall_mem_singleton.2 ⟨_, row⟩) change item
      | inr family =>
          cases List.mem_singleton.1 family
          trivial
    · intro id other
      rw [Table.get_put, if_neg other]
      rfl

theorem accounted_remove (p : Policy (Table E) E) (e : E) :
    Accounted w ((p.remove e (Table.repository.delete e)).run w) (w.keeper.delete e).2 := by
  obtain ⟨key, keyed⟩ := Key.item_ok (E := E) (Entity.id e)
  rw [Policy.remove_of_key p keyed]
  refine ⟨rfl, ?_⟩
  rw [show (Table.repository.delete e w.keeper).1 = (w.keeper.delete e).1 from rfl]
  rcases w.keeper.delete_cases e with ⟨error, deleted⟩ | deleted
  · rw [deleted]
    exact Table.accounts_nil _
  · rw [deleted]
    refine Table.accounts_written (e := e) ?_ (List.mem_cons_of_mem _ List.mem_cons_self) ?_ ?_
    · intro own _ keyed'
      cases keyed.symm.trans keyed'
      exact List.mem_cons_self
    · intro change member
      rcases List.mem_cons.1 member with rfl | member
      · trivial
      · cases List.mem_singleton.1 member
        trivial
    · intro id other
      rw [Table.get_erase, if_neg other]

section

variable (fresh : w.keeper.Fresh w.link.memory.store)
include fresh

theorem Table.Fresh.get_of_value? {id : Int32} {key : String} (keyed : Key.item E id = .ok key) {e : E}
    (found : (w.link.value? key).bind Entity.decode? = some e) : w.keeper.get id = some e := by
  obtain ⟨value, stored, decoded⟩ := Option.bind_eq_some_iff.1 found
  have held : (w.link.memory.store.lookup? w.link.memory.now key).bind Entity.decode? = some e := by
    rw [Cache.Link.value?_some stored]
    exact decoded
  exact fresh.lookup? keyed held

theorem result_get_of_fresh (p : Policy (Table E) E) (id : Int32) :
    ((p.get id Table.repository.get).run w).value.result = .ok (w.keeper.get id) := by
  obtain ⟨key, keyed⟩ := Key.item_ok (E := E) id
  rw [Policy.result_get keyed p Table.repository.get fun e found =>
    congrArg Except.ok (fresh.get_of_value? keyed found)]
  rfl

theorem value_contains_of_fresh (id : Int32) :
    ((Policy.contains E id Table.repository.contains).run w).value = .ok (w.keeper.contains id) := by
  obtain ⟨key, keyed⟩ := Key.item_ok (E := E) id
  refine Policy.value_contains keyed Table.repository.contains fun e found => ?_
  have row := fresh.get_of_value? keyed found
  exact congrArg Except.ok (by rw [Table.contains_eq, row]; rfl)

theorem result_getMany_of_fresh {p : Policy (Table E) E}
    (still : ∀ counter, p.counter? = some counter → ∀ k, (counter k).2 = k)
    (wf : w.link.memory.store.WellFormed) {ids : List Int32} (some_ids : ids ≠ []) :
    ((p.getMany ids fun ids => present (Table.repository.getMany ids)).run w).value.result =
      .ok (w.keeper.getMany ids) := by
  have given : ids.isEmpty = false := by simpa using some_ids
  have read : p.readCached ids = Policy.readMany ids := by
    rw [Policy.readCached, given]
    rfl
  obtain ⟨keys, mapped, keyed⟩ := Key.mapM_item (E := E) ids
  obtain ⟨found, value⟩ := Policy.readMany_ok mapped w
  rw [← read] at value
  cases found with
  | none =>
      rw [value_getMany_of_miss still value]
      rfl
  | some es =>
      rw [Policy.getMany_of_hit value, Table.getMany, given, if_neg Bool.false_ne_true]
      rw [read] at value
      obtain ⟨keys', mapped', stored⟩ := Policy.forall₂_of_readMany wf value
      cases mapped.symm.trans mapped'
      exact congrArg Except.ok (fresh.forall₂ keyed stored).symm

end

end Lookaside
