import Lookaside.Proofs.Growth
import Lookaside.Proofs.Serving
import Lookaside.Proofs.Steadiness

namespace Lookaside

namespace Store

theorem entries_push_erase {s : Store} {e : Entry} {family : String}
    (unmixed : (∀ x ∈ s.entries, x.key = family) ∨ ∀ x ∈ s.entries, x.key ≠ family)
    (room : 0 < s.capacity) (item : e.key ≠ family) (fresh : ∀ x ∈ s.entries, x.key ≠ e.key) :
    ((s.push e).erase family).entries = (e :: (s.erase family).entries).take s.capacity := by
  have kept : s.entries.filter (·.key ≠ e.key) = s.entries :=
    List.filter_eq_self.2 fun x member => decide_eq_true (fresh x member)
  obtain ⟨n, size⟩ : ∃ n, s.capacity = n + 1 := ⟨s.capacity - 1, by omega⟩
  simp only [erase, push, kept, size, List.take_succ_cons]
  rw [List.filter_cons_of_pos (by simpa using item)]
  congr 1
  rcases unmixed with marker | items
  · have gone (l : List Entry) (part : l ⊆ s.entries) : l.filter (·.key ≠ family) = [] :=
      List.filter_eq_nil_iff.2 fun x member => by simpa using marker x (part member)
    rw [gone _ (List.take_subset n _), gone _ (List.Subset.refl _), List.take_nil]
  · have whole (l : List Entry) (part : l ⊆ s.entries) : l.filter (·.key ≠ family) = l :=
      List.filter_eq_self.2 fun x member => decide_eq_true (items x (part member))
    rw [whole _ (List.take_subset n _), whole _ (List.Subset.refl _)]

end Store

variable {E : Type} [NumberedEntity E]

/-- What a cache is like once some number of rows have been added and nothing else has been done. None of them
expires before the end. -/
structure Packed (E : Type) [NumberedEntity E] (capacity count ending : Nat) (l : Cache.Link) : Prop where
  faults : l.faults = .never
  room : l.memory.store.capacity = capacity
  unmixed : (∀ x ∈ l.memory.store.entries, x.key = Key.family E) ∨
    ∀ x ∈ l.memory.store.entries, x.key ≠ Key.family E
  alive : ∀ x ∈ l.memory.store.entries, x.key ≠ Key.family E → x.isExpired ending = false
  filled : (l.memory.store.erase (Key.family E)).count = min count capacity

theorem CachedRepository.state_save {ρ I : Type} {E : Type} [Entity E I] (c : CachedRepository ρ E I)
    (e : E) (w : World ρ) :
    (Step.run (ExceptT.run (c.save e)) w).state =
      (Step.run (ExceptT.run (settle (c.policy.save e (c.repository.save e)))) w).state := by
  rw [save, ExceptT.run_bind, Step.run_bind]
  generalize Step.run (ExceptT.run (settle (c.policy.save e (c.repository.save e)))) w = r
  match r with
  | ⟨.error overflow, _, _⟩ => rfl
  | ⟨.ok (.error error), _, _⟩ => rfl
  | ⟨.ok (.ok saved), _, _⟩ => rfl

variable {w : World (Table E)} {options : Policy.Options} {deadline : Option Nat} {capacity count ending : Nat}

theorem Agreeing.packed_empty (h : Agreeing w) (no_rows : w.keeper.all = [])
    (faults : w.link.faults = .never) (room : w.link.memory.store.capacity = capacity) :
    Packed E capacity 0 ending w.link := by
  have marker : ∀ x ∈ w.link.memory.store.entries, x.key = Key.family E := by
    intro x member
    rcases h.coherent x member with ⟨family, -⟩ | ⟨id, e, -, -, found, -⟩
    · exact family
    · have row := Table.mem_all.2 ⟨id, found⟩
      rw [no_rows] at row
      cases row
  refine ⟨faults, room, .inl marker, fun x member item => absurd (marker x member) item, ?_⟩
  rw [Nat.zero_min, Store.count, Store.erase]
  exact List.length_eq_zero_iff.2 (List.filter_eq_nil_iff.2 fun x member => by simpa using marker x member)

theorem Packed.wait (packed : Packed E capacity count ending w.link) (span : Span) :
    Packed E capacity count ending (w.wait span).link :=
  ⟨packed.faults, packed.room, packed.unmixed, packed.alive, packed.filled⟩

variable [LawfulNumbered E]

theorem Agreeing.fresh {spare : Nat} (h : Agreeing w) (growing : w.keeper.Growing spare) {key : String}
    (keyed : Key.item E w.keeper.nextId = .ok key) :
    ∀ x ∈ w.link.memory.store.entries, x.key ≠ key := by
  rintro x member rfl
  obtain ⟨e, found, -⟩ := (h.coherent x member).row keyed
  rw [growing.free (Int32.le_refl _)] at found
  cases found

theorem Agreeing.stored_save {spare : Nat} (h : Agreeing w) (sound : w.keeper.Sound spare)
    (fits : w.link.memory.deadline options.ttl = .ok deadline) {e : E} (new : Table.creates e = true) :
    ∃ key value, Key.item E w.keeper.nextId = .ok key ∧
      (Step.run (ExceptT.run ((Table.cached E options).save e)) w).state.link.memory =
        { w.link.memory with
          store := (w.link.memory.store.push ⟨key, value, deadline⟩).erase (Key.family E) } := by
  let p := (Table.cached E options).policy
  let persist : Call (Table E) E := fun t => t.save e
  let e' := NumberedEntity.withId w.keeper.nextId e
  have own : Entity.id e' = w.keeper.nextId := LawfulNumbered.id_withId _ _
  obtain ⟨key, keyed⟩ := Key.item_ok (E := E) (Entity.id e')
  obtain ⟨value, encoded, -⟩ := LawfulNumbered.decode?_encode e'
  have identity : Entity.hasIdentity e' = true := by
    rw [LawfulNumbered.hasIdentity_iff, own, Int32.lt_iff_toInt_lt]
    exact sound.next
  have result := Policy.value_save p e persist w
  rw [show (persist w.keeper).1 = .ok e' from congrArg Prod.fst (w.keeper.save_new new), Policy.saved,
    Policy.stores_singleton (Policy.cacheKey?_some.2 ⟨identity, keyed⟩)] at result
  have state := Policy.state_save p e persist w
  obtain ⟨-, stored⟩ := h.run_settle (p.spares_save e persist) fits (by rw [result]; rintro _ ⟨⟩; rfl)
  refine ⟨key, value, own ▸ keyed, ?_⟩
  rw [CachedRepository.state_save]
  refine stored.memory.trans ?_
  rw [result, state]
  show ({ w.link.memory with
    store := ((Change.store key e').make deadline w.link.memory.store).erase (Key.family E) } : Memory) = _
  rw [Change.make, encoded]

theorem Packed.save {spare : Nat} (packed : Packed E capacity count ending w.link) (positive : 0 < capacity)
    (h : Agreeing w) (growing : w.keeper.Growing spare)
    (fits : w.link.memory.deadline options.ttl = .ok deadline) (lasts : ∀ d, deadline = some d → ending ≤ d)
    {e : E} (new : Table.creates e = true) :
    Packed E capacity (count + 1) ending
      (Step.run (ExceptT.run ((Table.cached E options).save e)) w).state.link := by
  obtain ⟨key, value, keyed, memory⟩ := h.stored_save growing.toSound fits new
  have item : key ≠ Key.family E := Key.item_ne_family keyed
  have entries := Store.entries_push_erase (e := ⟨key, value, deadline⟩) packed.unmixed
    (packed.room ▸ positive) item (h.fresh growing keyed)
  refine ⟨?_, ?_, ?_, ?_, ?_⟩
  · exact (((Table.cached E options).steady_save e).faults w).trans packed.faults
  · exact (((Table.cached E options).steady_save e).capacity w).trans packed.room
  all_goals rw [memory]
  · exact .inr fun x member => (Store.mem_erase.1 member).2
  · intro x member other
    rcases Store.mem_push (Store.mem_erase.1 member).1 with rfl | ⟨old, -⟩
    · exact Entry.isExpired_eq_false.2 lasts
    · exact packed.alive x old other
  · have filled : (w.link.memory.store.erase (Key.family E)).entries.length = _ := packed.filled
    have again (s : Store) (key : String) : (s.erase key).erase key = s.erase key := by
      simp [Store.erase, List.filter_filter]
    dsimp only
    rw [again, Store.count, entries, List.length_take, List.length_cons, filled, packed.room]
    omega

omit [LawfulNumbered E] in
theorem Agreeing.isItem (h : Agreeing w) {x : Entry} (member : x ∈ w.link.memory.store.entries) :
    Key.isItem E x.key = true ↔ x.key ≠ Key.family E := by
  rcases h.coherent x member with ⟨family, -⟩ | ⟨id, e, -, keyed, -⟩
  · rw [family, Key.isItem_family]
    simp
  · exact iff_of_true (Key.isItem_item keyed) (Key.item_ne_family keyed)

theorem Agreeing.decodes (h : Agreeing w) {x : Entry} (member : x ∈ w.link.memory.store.entries)
    (item : x.key ≠ Key.family E) : (Entity.decode? (E := E) x.value).isSome = true := by
  rcases h.coherent x member with ⟨family, -⟩ | ⟨id, e, -, -, -, encoded⟩
  · exact absurd family item
  · rw [Table.decode?_eq encoded]
    rfl

theorem Packed.length_listed (packed : Packed E capacity count ending w.link)
    (before : w.link.memory.now ≤ ending) (h : Agreeing w) :
    (Lookup.listed E (w.link.values (Key.family E))).length = min count capacity := by
  rw [← packed.filled, Cache.Link.values_never packed.faults, Lookup.listed, Memory.scan, Store.scan,
    (((List.mergeSort_perm _ _).filter _).filterMap _).length_eq, List.filter_map, List.filterMap_map,
    List.filter_filter]
  have items : w.link.memory.store.entries.filter (fun x => Key.isItem E x.key &&
      ((Key.family E).toList.isPrefixOf x.key.toList && !x.isExpired w.link.memory.now)) =
        (w.link.memory.store.erase (Key.family E)).entries := by
    refine List.filter_congr fun x member => ?_
    by_cases item : x.key = Key.family E
    · rw [item, Key.isItem_family]
      simp
    · have listed := (h.isItem member).2 item
      rw [listed, Entry.isExpired_of_le before (packed.alive x member item)]
      rw [Key.isItem, Bool.and_eq_true] at listed
      simp [listed.1, item]
  refine (congrArg _ (congrArg _ items)).trans (List.filterMap_length_eq_length.2 fun x member => ?_)
  obtain ⟨member, item⟩ := Store.mem_erase.1 member
  exact h.decodes member item

theorem Packed.serves_all (packed : Packed E capacity count ending w.link)
    (before : w.link.memory.now ≤ ending) (h : Agreeing w) (positive : 0 < min count capacity)
    (trusts : options.validateCount = false)
    (fits : w.link.memory.deadline options.ttl = .ok deadline) :
    Serves w ((Table.cached E options).getMany [])
      (fun a => ∃ es, a = .ok es ∧ es.length = min count capacity) w.keeper := by
  let p := (Table.cached E options).policy
  have length : (p.found w.link).length = min count capacity := packed.length_listed before h
  have valid : p.validator (I := Int32) = .ok none := by
    rw [Policy.validator, show p.options.validateCount = false from trusts]
    rfl
  have some_found : p.found w.link ≠ [] := List.length_pos_iff.1 (length ▸ positive)
  refine (h.serves_hit fits [] (Policy.readAll_of_found valid some_found (Policy.agrees_none _ _))).mono ?_
  rintro _ rfl
  exact ⟨_, rfl, length⟩

end Lookaside
