import Lookaside.Proofs.Confinement
import Lookaside.Proofs.Content
import Lookaside.Proofs.Inclusion
import Lookaside.Proofs.Steadiness
import Lookaside.Proofs.TextOrder
import Mathlib

namespace Lookaside

theorem forall₂_filterMap {α β : Type} {f : α → Option β} {r : α → β → Prop} {l : List α}
    (all : ∀ a ∈ l, ∃ b, f a = some b ∧ r a b) : List.Forall₂ r l (l.filterMap f) := by
  induction l with
  | nil => exact .nil
  | cons a l ih =>
      rw [List.forall_mem_cons] at all
      obtain ⟨⟨b, found, related⟩, rest⟩ := all
      rw [List.filterMap_cons, found]
      exact .cons related (ih rest)

variable {ρ : Type} {kind : Kind}

namespace Kind

structure Written (p : Policy ρ kind.Record) (l : Cache.Link) : Prop where
  never : l.faults = .never
  wellFormed : l.memory.store.WellFormed
  content : ∀ x ∈ l.memory.store.entries, p.Content x.key x.value

def items (kind : Kind) (l : Cache.Link) : List (String × Bytes) :=
  (l.memory.scan (Key.family kind.Record)).filter fun pair => Key.isItem kind.Record pair.1

namespace Written

variable {p : Policy ρ kind.Record} {l : Cache.Link} (h : Written p l)
include h

theorem item {x : Entry} (stored : x ∈ l.memory.store.entries)
    (item : Key.isItem kind.Record x.key = true) :
    ∃ e : kind.Record, Entity.decode? x.value = some e ∧
      Key.item kind.Record (Entity.id e) = .ok x.key := by
  rcases h.content x stored with ⟨family, -, -⟩ | ⟨e, -, -, keyed, encoded⟩
  · exact absurd family (Key.ne_family_of_isItem item)
  · exact ⟨e, decode?_encode encoded, keyed⟩

theorem listed_items : List.Forall₂ (fun pair e => Key.item kind.Record (Entity.id e) = .ok pair.1)
    (items kind l) (Lookup.listed kind.Record (l.values (Key.family kind.Record))) := by
  rw [Cache.Link.values_never h.never]
  refine forall₂_filterMap fun pair member => ?_
  obtain ⟨scanned, item⟩ := List.mem_filter.1 member
  obtain ⟨x, stored, -, -, rfl⟩ := Store.mem_scan.1 scanned
  exact h.item stored item

theorem stored_of_listed {e : kind.Record}
    (member : e ∈ Lookup.listed kind.Record (l.values (Key.family kind.Record))) :
    ∃ x ∈ l.memory.store.entries, x.isExpired l.memory.now = false ∧
      Key.item kind.Record (Entity.id e) = .ok x.key ∧ Entity.decode? x.value = some e := by
  rw [Cache.Link.values_never h.never] at member
  obtain ⟨pair, listed, decoded⟩ := List.mem_filterMap.1 member
  obtain ⟨scanned, item⟩ := List.mem_filter.1 listed
  obtain ⟨x, stored, -, live, rfl⟩ := Store.mem_scan.1 scanned
  obtain ⟨e', decoded', keyed⟩ := h.item stored item
  cases decoded'.symm.trans decoded
  exact ⟨x, stored, live, keyed, decoded⟩

theorem mem_listed_iff {id : kind.Id} {key : String} (keyed : Key.item kind.Record id = .ok key)
    (e : kind.Record) : (l.value? key).bind Entity.decode? = some e ↔
      e ∈ Lookup.listed kind.Record (l.values (Key.family kind.Record)) ∧ Entity.id e = id := by
  rw [Cache.Link.value?_never h.never, Option.bind_eq_some_iff]
  constructor
  · rintro ⟨value, found, decoded⟩
    obtain ⟨x, stored, rfl, live, rfl⟩ := Store.lookup?_some found
    obtain ⟨e', own, -, encoded⟩ := (h.content x stored).of_item keyed
    cases decoded.symm.trans (decode?_encode encoded)
    have scanned := Store.mem_scan.2 ⟨x, stored, Key.Owned.family_prefix (Key.owned_item keyed), live, rfl⟩
    rw [Cache.Link.values_never h.never]
    exact ⟨List.mem_filterMap.2 ⟨_, List.mem_filter.2 ⟨scanned, Key.isItem_item keyed⟩, decoded⟩, own⟩
  · rintro ⟨member, rfl⟩
    obtain ⟨x, stored, live, own, decoded⟩ := h.stored_of_listed member
    cases keyed.symm.trans own
    exact ⟨x.value, h.wellFormed.lookup?_eq stored live, decoded⟩

end Written

end Kind

theorem nodup_of_keys {E I : Type} [Entity E I] [DistinctIds E] {ids : List I} {keys : List String}
    (keyed : ids.mapM (Key.item E) = .ok keys) (distinct : keys.Nodup) : ids.Nodup := by
  have unique : Relator.BiUnique fun (id : I) key => Key.item E id = .ok key :=
    ⟨fun _ _ _ => Key.item_injective DistinctIds.renderId_injective,
      fun _ _ _ found found' => Except.ok.inj (found.symm.trans found')⟩
  exact (List.rel_nodup unique (Key.mapM_item_iff.1 keyed)).2 distinct

namespace Kind

/-- A scan lists exactly the entities that lookups by id find, each id once and in the order of the bytes of
the keys. -/
theorem scan_lists_cached (p : Policy ρ kind.Record) {capacity : Nat} {memory : Memory}
    (made : Memory.create capacity = .ok memory) (keeper : ρ) {moves : List (Move ρ kind.Record kind.Id)}
    (honest : ∀ operation, .call operation ∈ moves → operation.Honest) :
    let w := ((Session.play p moves).run (.start memory .never keeper)).state.world
    let listed := ((Lookup.family : Act ρ kind.Id (List kind.Record)).run w).value
    (∀ (id : kind.Id) (e : kind.Record),
      ((Policy.getCached id : Act ρ kind.Id (Except PolicyError (Option kind.Record))).run w).value =
        .ok (some e) ↔ e ∈ listed ∧ Entity.id e = id) ∧
      (listed.map Entity.id).Nodup ∧
      ∃ keys, (listed.map Entity.id).mapM (Key.item kind.Record) = .ok keys ∧
        keys.Pairwise fun a b => Bytes.ofText a < Bytes.ofText b := by
  intro w listed
  have written : Written p w.link := by
    refine ⟨Session.faults_play _ moves, ?_, ?_⟩
    · have start : (Store.WellFormed memory.store) := Memory.create_ok made ▸ Store.wellFormed_nil _
      have tidy : (Session.start memory .never keeper : Session ρ kind.Record).Tidy :=
        ⟨List.forall_mem_nil _, start⟩
      exact (Session.confined_play tidy moves).tidy.wellFormed
    · exact Session.content_play (Session.sound_start made .never keeper) honest
  have values : listed = Lookup.listed kind.Record (w.link.values (Key.family kind.Record)) :=
    Lookup.value_family w
  have keyed : (listed.map Entity.id).mapM (Key.item kind.Record) = .ok ((items kind w.link).map (·.1)) := by
    rw [Key.mapM_item_iff, values, List.forall₂_map_left_iff, List.forall₂_map_right_iff]
    exact written.listed_items.flip
  have sorted : ((items kind w.link).map (·.1)).Pairwise fun a b => a < b := by
    rw [List.pairwise_map]
    exact (written.wellFormed.scan_strictly_sorted _ _).filter _
  refine ⟨?_, nodup_of_keys keyed (sorted.imp ne_of_lt), _, keyed, sorted.imp Bytes.ofText_lt_ofText⟩
  intro id e
  -- an id without a key is refused by the lookup, and nothing that is stored has it
  cases key : Key.item kind.Record id with
  | error error =>
      rw [Policy.getCached, key, values]
      constructor
      · intro found
        cases found
      · rintro ⟨member, rfl⟩
        obtain ⟨x, -, -, own, -⟩ := written.stored_of_listed member
        cases key.symm.trans own
  | ok key' =>
      rw [Policy.value_getCached key, Except.ok.injEq, values]
      exact written.mem_listed_iff key e

theorem scan_lists_cached_languages :
    let p : Policy Unit (Record language) := .new ⟨false, true, some 5000000000⟩
    let fetched (code : String) : Move Unit (Record language) (Id language) :=
      .call (.get code fun id k => (.ok (some (⟨id⟩ : Language)), k))
    let moves := [fetched "fr", .discharge 0, .wait 6000000000, .call (.getMany [] fun _ k => (.ok [], k)),
      fetched "de", fetched "EN", .discharge 2, .discharge 0, .discharge 0]
    let memory : Memory := ⟨⟨4, []⟩, 1000000000⟩
    let stored := ((Session.play p moves).run (.start memory .never ())).state.world.link.memory.store.entries
    let w := ((Session.play p moves).run (.start memory .never ())).state.world
    let listed := ((Lookup.family : Act Unit (Id language) (List (Record language))).run w).value
    Memory.create 4 = .ok memory ∧ (∀ operation, .call operation ∈ moves → operation.Honest) ∧
      stored.map (·.key) =
        ["uRepo_Language_de", "uRepo_Language_", "uRepo_Language_EN", "uRepo_Language_fr"] ∧
      (⟨"EN"⟩ : Language) ∈ listed ∧ (⟨"de"⟩ : Language) ∈ listed ∧ (⟨"fr"⟩ : Language) ∉ listed ∧
      (listed.map Entity.id).Nodup ∧
      ∃ keys, (listed.map Entity.id).mapM (Key.item (Record language)) = .ok keys ∧
        keys.Pairwise fun a b => Bytes.ofText a < Bytes.ofText b := by
  intro p fetched moves memory stored w listed
  have keys : stored.map (·.key) =
      ["uRepo_Language_de", "uRepo_Language_", "uRepo_Language_EN", "uRepo_Language_fr"] := by
    dsimp only [stored, moves, fetched, memory, p]
    cbv
  have honest : ∀ operation, .call operation ∈ moves → operation.Honest := by
    intro operation member
    simp only [moves, fetched, List.mem_cons, Move.call.injEq, reduceCtorEq, List.not_mem_nil, or_false,
      false_or] at member
    rcases member with rfl | rfl | rfl | rfl
    · rintro k e found
      cases found
      rfl
    · trivial
    all_goals
      rintro k e found
      cases found
      rfl
  obtain ⟨same, distinct, sorted⟩ :=
    scan_lists_cached p (show Memory.create 4 = .ok memory from rfl) () honest
  refine ⟨rfl, honest, keys, ((same "EN" (⟨"EN"⟩ : Language)).1 ?_).1, ((same "de" (⟨"de"⟩ : Language)).1 ?_).1,
    fun member => ?_, distinct, sorted⟩
  · dsimp only [w, moves, fetched, memory, p]
    cbv
  · dsimp only [w, moves, fetched, memory, p]
    cbv
  · have none : ((Policy.getCached "fr" : Act Unit (Id language)
        (Except PolicyError (Option (Record language)))).run w).value = .ok none := by
      dsimp only [w, moves, fetched, memory, p]
      cbv
    have found := (same "fr" (⟨"fr"⟩ : Language)).2 ⟨member, rfl⟩
    rw [none] at found
    cases found

end Kind

end Lookaside
