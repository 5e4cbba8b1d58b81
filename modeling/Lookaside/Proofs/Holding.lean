import Lookaside.Proofs.AllOrNothing
import Lookaside.Proofs.Filling
import Lookaside.Proofs.Turns
import Mathlib

namespace Lookaside

/-! ## Hits -/

namespace Policy

open Act Lookup Note

variable {ρ E I : Type} [Entity E I] {w : World ρ} {e : E}

theorem asked_get_of_hit {id : I} {key : String} (keyed : Key.item E id = .ok key) (p : Policy ρ E)
    (fetch : I → Call ρ (Option E)) (found : (w.link.value? key).bind Entity.decode? = some e) :
    asked ((p.get id fetch).run w).notes = [] := by
  rw [← value_one (I := I)] at found
  rw [get_eq keyed, Step.run_bind, found, asked_append, asked_lookups ((looksUp_one key).lookups w)]
  rfl

theorem asked_contains_of_hit {id : I} {key : String} (keyed : Key.item E id = .ok key)
    (fetch : I → Call ρ Bool) (found : (w.link.value? key).bind Entity.decode? = some e) :
    asked ((contains E id fetch).run w).notes = [] := by
  rw [← value_one (I := I)] at found
  rw [contains_eq keyed, Step.run_bind, found, asked_append, asked_lookups ((looksUp_one key).lookups w)]
  rfl

theorem asked_readCached {p : Policy ρ E} {ids : List I} (some_ids : ids ≠ []) :
    asked ((p.readCached ids).run w).notes = [] := by
  rw [readCached, if_neg (by simpa using some_ids)]
  exact asked_lookups ((looksUp_readMany ids).lookups w)

theorem fills_stores (es : List E) : (stores es).filterMap Change.fills? = es.filterMap cacheKey? := by
  rw [stores, List.filterMap_filterMap]
  refine List.filterMap_congr fun e _ => ?_
  cases cacheKey? e <;> rfl

theorem card_fills_stores (es : List E) [DecidableEq I] :
    ((stores es).filterMap Change.fills?).toFinset.card ≤ (es.map (Entity.id (E := E))).toFinset.card := by
  let key (id : I) : String := Key.family E ++ Entity.renderId E id
  have sub : ((stores es).filterMap Change.fills?).toFinset ⊆
      (es.map (Entity.id (E := E))).toFinset.image key := by
    intro k member
    rw [fills_stores, List.mem_toFinset, List.mem_filterMap] at member
    obtain ⟨e, here, cacheable⟩ := member
    refine Finset.mem_image.2 ⟨Entity.id e, List.mem_toFinset.2 (List.mem_map_of_mem here), ?_⟩
    exact (Key.item_ok_iff.1 (cacheKey?_some.1 cacheable).2).2
  exact Nat.le_trans (Finset.card_le_card sub) Finset.card_image_le

end Policy

/-! ## Items -/

variable {E : Type} [NumberedEntity E]

def World.Holds (w : World (Table E)) (id : Int32) : Prop :=
  ∃ x ∈ w.link.memory.store.entries, Key.item E id = .ok x.key ∧ x.isExpired w.link.memory.now = false

def World.Lasts {ρ : Type} (w : World ρ) (span : Span) : Prop :=
  ∀ x ∈ w.link.memory.store.entries, x.isExpired w.link.memory.now = false →
    x.isExpired (w.link.memory.now + span) = false

theorem World.Holds.wait {w : World (Table E)} {id : Int32} (h : w.Holds id) {span : Span}
    (lasts : w.Lasts span) : (w.wait span).Holds id := by
  obtain ⟨x, member, keyed, live⟩ := h
  exact ⟨x, member, keyed, lasts x member live⟩

theorem World.Lasts.lookup? {ρ : Type} {w : World ρ} {span : Span} (lasts : w.Lasts span)
    (wf : w.link.memory.store.WellFormed) {key : String} {value : Bytes}
    (found : w.link.memory.store.lookup? w.link.memory.now key = some value) :
    w.link.memory.store.lookup? (w.link.memory.now + span) key = some value := by
  obtain ⟨x, member, rfl, live, rfl⟩ := Store.lookup?_some found
  exact wf.lookup?_eq member (lasts x member live)

theorem World.holds_of_value? {w : World (Table E)} {id : Int32} {key : String}
    (keyed : Key.item E id = .ok key) {e : E} (found : (w.link.value? key).bind Entity.decode? = some e) :
    w.Holds id := by
  obtain ⟨value, stored, -⟩ := Option.bind_eq_some_iff.1 found
  obtain ⟨x, member, rfl, live, -⟩ := Store.lookup?_some (Cache.Link.value?_some stored)
  exact ⟨x, member, keyed, live⟩

structure Legible (w : World (Table E)) : Prop where
  fresh : w.keeper.Fresh w.link.memory.store
  wellFormed : w.link.memory.store.WellFormed
  never : w.link.faults = .never

def Alone (options : Policy.Options) (record : Repository.Record E Int32) (answer : Repository.Answer E)
    (w : World (Table E)) : Prop :=
  ((Table.cached E options).call record w).value = .ok (.ok answer) ∧
    Note.asked ((Table.cached E options).call record w).notes = []

/-- The table is at most asked how many rows there are. -/
def Lists (options : Policy.Options) (es : List E) (w : World (Table E)) : Prop :=
  ∃ es', ((Table.cached E options).call (.getMany []) w).value = .ok (.ok (.many es')) ∧ es'.Perm es ∧
    ((Table.cached E options).call (.getMany []) w).notes.filterMap Note.errand? = []

variable {w w' : World (Table E)} {options : Policy.Options}

theorem Legible.wait (h : Legible w) (span : Span) : Legible (w.wait span) := ⟨h.fresh, h.wellFormed, h.never⟩

/-! ## Requests for several rows that the cache answers -/

theorem call_many_of_hit {ids : List Int32} {es : List E}
    (hit : (((Table.cached E options).policy.readCached ids).run w).value = .ok (some es)) :
    ((Table.cached E options).call (.getMany ids) w).value = .ok (.ok (.many es)) ∧
      ((Table.cached E options).call (.getMany ids) w).notes.filterMap Note.errand? = [] := by
  let c := Table.cached E options
  have run := Policy.getMany_of_hit hit fun ids => CachedRepository.present (c.repository.getMany ids)
  obtain ⟨events, unasked, -, called⟩ := c.call_of_settled (.getMany ids) rfl (congrArg Outcome.value run)
  rw [called]
  refine ⟨rfl, ?_⟩
  rw [List.filterMap_append, Note.errands_of_asked unasked, List.append_nil]
  exact (congrArg (fun r => r.notes.filterMap Note.errand?) run).trans (c.policy.errands_readCached ids w)

theorem lists_of_found {es : List E} (some_rows : es ≠ [])
    (perm : ((Table.cached E options).policy.found w.link).Perm es)
    (counted : options.validateCount = true → w.keeper.count = es.length) : Lists options es w := by
  have some_found : (Table.cached E options).policy.found w.link ≠ [] :=
    fun empty => some_rows (List.perm_nil.1 (empty ▸ perm.symm))
  have hit : (((Table.cached E options).policy.readCached []).run w).value =
      .ok (some ((Table.cached E options).policy.found w.link)) := by
    refine Policy.readAll_of_found Agreeing.validator_cached some_found fun counter given => ?_
    split at given
    · next validates =>
        cases given
        exact congrArg Except.ok ((counted validates).trans perm.length_eq.symm)
    · cases given
  obtain ⟨value, errands⟩ := call_many_of_hit hit
  exact ⟨_, value, perm, errands⟩

/-! ## Items that are in the cache -/

variable [LawfulNumbered E]

namespace Legible

variable (h : Legible w)
include h

theorem read {id : Int32} (holds : w.Holds id) :
    ∃ key e, Key.item E id = .ok key ∧ w.keeper.get id = some e ∧
      (w.link.value? key).bind Entity.decode? = some e := by
  obtain ⟨x, member, keyed, live⟩ := holds
  obtain ⟨e, found, encoded⟩ := (h.fresh x member (Key.item_ne_family keyed)).row keyed
  refine ⟨x.key, e, keyed, found, ?_⟩
  rw [Cache.Link.value?_never h.never, h.wellFormed.lookup?_eq member live]
  exact Table.decode?_eq encoded

theorem alone_get {id : Int32} (holds : w.Holds id) :
    Alone options (.get id) (.found (w.keeper.get id)) w := by
  let c := Table.cached E options
  obtain ⟨key, e, keyed, row, found⟩ := h.read holds
  have hit := (Policy.get_of_hit keyed c.policy c.repository.get found).1
  obtain ⟨events, unasked, -, run⟩ := c.call_of_settled (.get id) rfl hit
  rw [Alone, run, row]
  refine ⟨rfl, ?_⟩
  rw [Note.asked_append, unasked, List.append_nil]
  exact Policy.asked_get_of_hit keyed c.policy c.repository.get found

theorem alone_contains {id : Int32} (holds : w.Holds id) :
    Alone options (.contains id) (.whether true) w := by
  let c := Table.cached E options
  obtain ⟨key, e, keyed, row, found⟩ := h.read holds
  have hit : (((Operation.contains id c.repository.contains).defer c.policy).run w).value =
      Policy.settled (.ok true) :=
    congrArg Policy.settled (Policy.contains_of_hit keyed c.repository.contains found).1
  obtain ⟨events, unasked, -, run⟩ := c.call_of_settled (.contains id) rfl hit
  rw [Alone, run]
  refine ⟨rfl, ?_⟩
  rw [Note.asked_append, unasked, List.append_nil, Operation.defer, Step.run_bind, Note.asked_append,
    Policy.asked_contains_of_hit keyed c.repository.contains found]
  rfl

theorem alone_getMany {ids : List Int32} (some_ids : ids ≠ []) (holds : ∀ id ∈ ids, w.Holds id) :
    Alone options (.getMany ids) (.many (w.keeper.getMany ids)) w := by
  let c := Table.cached E options
  have texts : ∀ id ∈ ids, Entity.renderId E id ≠ "" := fun id _ => Entity.renderId_ne_empty id
  have cached : ids.mapM (w.link.cached? E) ≠ none := by
    rw [Ne, mapM_none_iff]
    rintro ⟨id, member, absent⟩
    obtain ⟨key, e, keyed, -, found⟩ := h.read (holds id member)
    obtain ⟨-, rfl⟩ := Key.item_ok_iff.1 keyed
    rw [Cache.Link.value?_never h.never] at found
    cases absent.symm.trans found
  obtain ⟨es, found⟩ := Option.ne_none_iff_exists'.1 cached
  have value := Policy.value_readMany texts (E := E) h.wellFormed h.never
  have hit : ((c.policy.readCached ids).run w).value = .ok (some es) := by
    rw [Policy.readCached, if_neg (by simpa using some_ids), value, found]
  have run := Policy.getMany_of_hit hit fun ids => CachedRepository.present (c.repository.getMany ids)
  have same : es = w.keeper.getMany ids := by
    have result := result_getMany_of_fresh (p := c.policy) h.fresh (fun _ => Agreeing.counter_still)
      h.wellFormed some_ids
    exact Except.ok.inj ((congrArg (fun r => r.value.result) run).symm.trans result)
  obtain ⟨events, unasked, -, called⟩ := c.call_of_settled (.getMany ids) rfl (congrArg Outcome.value run)
  rw [Alone, called, same]
  refine ⟨rfl, ?_⟩
  rw [Note.asked_append, unasked, List.append_nil]
  exact (congrArg (fun r => Note.asked r.notes) run).trans (Policy.asked_readCached some_ids)

omit [LawfulNumbered E] in
theorem mem_found {e : E} : e ∈ (Table.cached E options).policy.found w.link ↔
    ∃ x ∈ w.link.memory.store.entries, Key.isItem E x.key = true ∧
      x.isExpired w.link.memory.now = false ∧ Entity.decode? x.value = some e := by
  have listed : (Table.cached E options).policy.found w.link =
      Lookup.listed E (w.link.memory.store.scan w.link.memory.now (Key.family E)) :=
    congrArg (Lookup.listed E) (Cache.Link.values_never h.never _)
  rw [listed, Lookup.listed, List.mem_filterMap]
  constructor
  · rintro ⟨y, member, decoded⟩
    obtain ⟨scanned, item⟩ := List.mem_filter.1 member
    obtain ⟨x, stored, -, live, rfl⟩ := Store.mem_scan.1 scanned
    exact ⟨x, stored, item, live, decoded⟩
  · rintro ⟨x, stored, item, live, decoded⟩
    have starts := item
    rw [Key.isItem, Bool.and_eq_true] at starts
    refine ⟨_, List.mem_filter.2 ⟨Store.mem_scan.2 ⟨x, stored, ?_, live, rfl⟩, item⟩, decoded⟩
    exact List.isPrefixOf_iff_prefix.1 starts.1

variable (options) in
theorem found_perm_found (h' : Legible w') (keeper : w'.keeper = w.keeper) (filed : w.keeper.Filed)
    (same : ∀ x, x ∈ w'.link.memory.store.entries ∧ x.isExpired w'.link.memory.now = false ↔
      x ∈ w.link.memory.store.entries ∧ x.isExpired w.link.memory.now = false) :
    ((Table.cached E options).policy.found w'.link).Perm ((Table.cached E options).policy.found w.link) := by
  obtain ⟨nodup, -⟩ := Agreeing.found_rows options h.fresh h.wellFormed filed
  obtain ⟨nodup', -⟩ := Agreeing.found_rows options h'.fresh h'.wellFormed (keeper.symm ▸ filed)
  refine (List.perm_ext_iff_of_nodup nodup' nodup).2 fun e => ?_
  rw [h.mem_found, h'.mem_found]
  constructor
  · rintro ⟨x, here, item, live, decoded⟩
    have there := (same x).1 ⟨here, live⟩
    exact ⟨x, there.1, item, there.2, decoded⟩
  · rintro ⟨x, here, item, live, decoded⟩
    have there := (same x).2 ⟨here, live⟩
    exact ⟨x, there.1, item, there.2, decoded⟩

theorem found_perm (filed : w.keeper.Filed)
    (complete : ∀ e ∈ w.keeper.all, w.Holds (Entity.id e)) :
    ((Table.cached E options).policy.found w.link).Perm w.keeper.all := by
  obtain ⟨nodup, rows⟩ := Agreeing.found_rows options h.fresh h.wellFormed filed
  refine (List.perm_ext_iff_of_nodup nodup filed.nodup_all).2 fun e =>
    ⟨fun found => Table.mem_all.2 ((rows e found).imp fun _ row => row.2), fun row => ?_⟩
  obtain ⟨x, member, keyed, live⟩ := complete e row
  obtain ⟨e', found', encoded⟩ := (h.fresh x member (Key.item_ne_family keyed)).row keyed
  obtain ⟨id, found⟩ := Table.mem_all.1 row
  rw [filed found] at found'
  cases found.symm.trans found'
  exact h.mem_found.2 ⟨x, member, Key.isItem_item keyed, live, Table.decode?_eq encoded⟩

theorem lists_rows (filed : w.keeper.Filed) (some_rows : w.keeper.all ≠ [])
    (complete : ∀ e ∈ w.keeper.all, w.Holds (Entity.id e)) : Lists options w.keeper.all w :=
  lists_of_found some_rows (h.found_perm filed complete) fun _ => (Table.length_all _).symm

/-- A marker is taken for the word of the table only where a scan finds nothing. -/
theorem lists_nothing (filed : w.keeper.Filed) (no_rows : w.keeper.all = [])
    (allowed : options.allowZeroCount = true) {bytes : Bytes}
    (stored : w.link.memory.store.lookup? w.link.memory.now (Key.family E) = some bytes)
    (marks : Marker.isMarker bytes = true) : Lists options [] w := by
  obtain ⟨-, rows⟩ := Agreeing.found_rows options h.fresh h.wellFormed filed
  have none_found : (Table.cached E options).policy.found w.link = [] := by
    refine List.eq_nil_iff_forall_not_mem.2 fun e found => ?_
    have row := Table.mem_all.2 ((rows e found).imp fun _ row => row.2)
    exact List.not_mem_nil (no_rows ▸ row)
  obtain ⟨value, errands⟩ :=
    call_many_of_hit (Agreeing.hit_of_shown h.never ⟨none_found, allowed, bytes, stored, marks⟩)
  exact ⟨_, value, .refl _, errands⟩

end Legible

/-! ## What a call leaves behind -/

section

variable {deadline : Option Nat} {changes : List (Change E)}

theorem Called.holds (called : Called deadline changes w w') (wf : w.link.memory.store.WellFormed)
    {ttl : Option Span} (fits : w.link.memory.deadline ttl = .ok deadline) {es : List E}
    (fills : changes.filterMap Change.fills? = es.filterMap Policy.cacheKey?)
    (kept : ∀ key, .clear key ∈ changes → key = Key.family E)
    (room : (es.map (Entity.id (E := E))).toFinset.card ≤ w.link.memory.store.capacity) {e : E}
    (member : e ∈ es) (identity : Entity.hasIdentity e = true) : w'.Holds (Entity.id e) := by
  obtain ⟨s, touched, stored⟩ := called.stored
  obtain ⟨key, keyed⟩ := Key.item_ok (E := E) (Entity.id e)
  have filled : key ∈ changes.filterMap Change.fills? := by
    rw [fills]
    exact List.mem_filterMap.2 ⟨e, member, Policy.cacheKey?_some.2 ⟨identity, keyed⟩⟩
  have storable : ∀ k e, .store k e ∈ changes → ∃ value, Entity.encode e = .ok value := by
    intro k e _
    obtain ⟨value, encoded, -⟩ := LawfulNumbered.decode?_encode e
    exact ⟨value, encoded⟩
  have few : (changes.filterMap Change.fills?).toFinset.card ≤ s.capacity := by
    rw [touched.capacity, fills, ← Policy.fills_stores]
    exact Nat.le_trans (Policy.card_fills_stores es) room
  obtain ⟨x, here, rfl, lives⟩ := Store.filled_foldl deadline (touched.wellFormed wf) filled
    (fun cleared => Key.item_ne_family keyed (kept _ cleared)) storable few
  refine ⟨x, stored ▸ here, keyed, ?_⟩
  rw [called.now]
  have alive := Memory.alive_of_deadline fits x.key x.value
  rwa [← lives] at alive

theorem Called.holds_one (called : Called deadline changes w w') (wf : w.link.memory.store.WellFormed)
    {ttl : Option Span} (fits : w.link.memory.deadline ttl = .ok deadline) {e : E}
    (identity : Entity.hasIdentity e = true)
    (fills : changes.filterMap Change.fills? = [e].filterMap Policy.cacheKey?)
    (kept : ∀ key, .clear key ∈ changes → key = Key.family E)
    (roomy : 0 < w.link.memory.store.capacity) : w'.Holds (Entity.id e) :=
  called.holds wf fits fills kept (Nat.le_trans (List.toFinset_card_le _) roomy) List.mem_cons_self identity

omit [LawfulNumbered E] in
theorem Called.same_of_nothing (called : Called deadline [] w w') (wf : w.link.memory.store.WellFormed)
    {span : Span} (lasts : w'.Lasts span) (x : Entry) :
    x ∈ (w'.wait span).link.memory.store.entries ∧ x.isExpired (w'.wait span).link.memory.now = false ↔
      x ∈ w.link.memory.store.entries ∧ x.isExpired w.link.memory.now = false := by
  obtain ⟨s, touched, stored⟩ := called.stored
  replace stored : w'.link.memory.store = s := stored
  constructor
  · rintro ⟨here, live⟩
    refine ⟨touched.mem (stored ▸ here), ?_⟩
    rw [← called.now]
    exact Entry.isExpired_of_le (Nat.le_add_right _ span) live
  · rintro ⟨here, live⟩
    have stays : x ∈ w'.link.memory.store.entries := stored ▸ touched.mem_of_live wf here live
    exact ⟨stays, lasts x stays (called.now.symm ▸ live)⟩

omit [LawfulNumbered E] in
theorem Called.holds_of_nothing (called : Called deadline [] w w') (wf : w.link.memory.store.WellFormed)
    {id : Int32} (holds : w.Holds id) : w'.Holds id := by
  obtain ⟨s, touched, stored⟩ := called.stored
  obtain ⟨x, member, keyed, live⟩ := holds
  refine ⟨x, stored ▸ touched.mem_of_live wf member live, keyed, ?_⟩
  rwa [called.now]

end

/-! ## What a request for several rows leaves behind -/

section

variable {deadline : Option Nat} {ids : List Int32} (writable : w.link.faults.SpareWrites)
  (filed : w.keeper.Filed) (fits : w.link.memory.deadline options.ttl = .ok deadline)

include writable filed fits in
theorem called_many_of_hit {es : List E}
    (hit : (((Table.cached E options).policy.readCached ids).run w).value = .ok (some es)) :
    Called deadline [] w ((Table.cached E options).call (.getMany ids) w).state :=
  called_of_value writable filed fits (.getMany ids) rfl (congrArg Outcome.value
    (Policy.getMany_of_hit hit fun ids => CachedRepository.present (Table.repository.getMany ids)))

variable (missed : (((Table.cached E options).policy.readCached ids).run w).value = .ok none)
include writable fits missed

omit [LawfulNumbered E] in
theorem call_many_of_miss :
    ((Table.cached E options).call (.getMany ids) w).value = .ok (.ok (.many (w.keeper.getMany ids))) :=
  call_value writable fits (.getMany ids) rfl
    (congrArg Deferred.result (value_getMany_of_miss (fun _ => Agreeing.counter_still) missed))

omit [LawfulNumbered E] in
theorem errands_of_miss :
    ((Table.cached E options).call (.getMany ids) w).notes.filterMap Note.errand? = [.fetchMany ids] := by
  obtain ⟨w', notes, unasked, run, -⟩ :=
    (Table.cached E options).call_of_writable (.getMany ids) rfl writable fits
  rw [run, List.filterMap_append, Note.errands_of_asked unasked, List.append_nil]
  exact (Policy.getMany_of_miss missed fun ids => CachedRepository.present (Table.repository.getMany ids)).2.2

include filed

theorem called_many_of_miss :
    Called deadline ((Table.cached E options).policy.collects ids.isEmpty (w.keeper.getMany ids)) w
      ((Table.cached E options).call (.getMany ids) w).state :=
  called_of_value writable filed fits (.getMany ids) rfl
    (value_getMany_of_miss (fun _ => Agreeing.counter_still) missed)

theorem holds_of_miss (wf : w.link.memory.store.WellFormed)
    (room : ((w.keeper.getMany ids).map (Entity.id (E := E))).toFinset.card ≤ w.link.memory.store.capacity)
    {e : E} (row : e ∈ w.keeper.getMany ids) (identity : Entity.hasIdentity e = true) :
    ((Table.cached E options).call (.getMany ids) w).state.Holds (Entity.id e) := by
  have called := called_many_of_miss writable filed fits missed
  rw [Policy.collects_of_mem _ _ row] at called
  exact called.holds wf fits (Policy.fills_stores _)
    (fun key cleared => absurd cleared (Policy.clear_notMem_stores _ key)) room row identity

end

theorem lists_rows_of_miss {deadline : Option Nat} (writable : w.link.faults.SpareWrites)
    (filed : w.keeper.Filed) (fits : w.link.memory.deadline options.ttl = .ok deadline)
    (missed : (((Table.cached E options).policy.readCached []).run w).value = .ok none)
    (wf : w.link.memory.store.WellFormed) (identified : w.keeper.Identified) (some_rows : w.keeper.all ≠ [])
    (room : w.keeper.count ≤ w.link.memory.store.capacity)
    (legible : Legible ((Table.cached E options).call (.getMany []) w).state) {span : Span}
    (lasts : ((Table.cached E options).call (.getMany []) w).state.Lasts span) :
    Lists options w.keeper.all (((Table.cached E options).call (.getMany []) w).state.wait span) := by
  have keeper : ((Table.cached E options).call (.getMany []) w).state.keeper = w.keeper :=
    keeper_read writable filed fits rfl
  have few : ((w.keeper.getMany []).map (Entity.id (E := E))).toFinset.card ≤ w.link.memory.store.capacity := by
    refine Nat.le_trans (List.toFinset_card_le _) ?_
    rw [List.length_map]
    exact (Table.length_all _).trans_le room
  have lists : Lists options ((Table.cached E options).call (.getMany []) w).state.keeper.all
      (((Table.cached E options).call (.getMany []) w).state.wait span) := by
    refine (legible.wait span).lists_rows (keeper.symm ▸ filed)
      (fun empty => some_rows ((congrArg Table.all keeper).symm.trans empty)) fun e row => ?_
    have member : e ∈ w.keeper.all := (congrArg (fun t : Table E => e ∈ t.all) keeper).mp row
    exact (holds_of_miss writable filed fits missed wf few member (identified e member)).wait lasts
  rwa [keeper] at lists

end Lookaside
