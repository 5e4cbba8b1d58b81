import Lookaside.Proofs.Holding
import Mathlib

namespace Lookaside

open Repository

variable {E : Type} [NumberedEntity E]

def Remembered (options : Policy.Options) (e : E) (w : World (Table E)) : Prop :=
  Alone options (.get (Entity.id e)) (.found (some e)) w ∧
    Alone options (.contains (Entity.id e)) (.whether true) w

/-- What is spared the table after a call that was made when the table was another one. -/
def Spared (options : Policy.Options) (capacity : Nat) (t : Table E) :
    Record E Int32 → Answer E → World (Table E) → Prop
  | .save _, .written e, w => Remembered options e w
  | .get _, .found (some e), w => Remembered options e w
  | .getMany [], .many es, w =>
    t.count ≤ capacity → (t.count = 0 → options.allowZeroCount = true) → Lists options es w
  | .getMany ids, .many es, w =>
    (∀ id ∈ ids, t.contains id = true) → ids.toFinset.card ≤ capacity →
      Alone options (.getMany ids) (.many es) w
  | _, _, _ => True

variable {w w' : World (Table E)} {options : Policy.Options}

structure Informed (options : Policy.Options) (w : World (Table E)) : Prop extends Agreeing w where
  never : w.link.faults = .never
  filed : w.keeper.Filed
  lives : ∃ deadline, w.link.memory.deadline options.ttl = .ok deadline
  roomy : 0 < w.link.memory.store.capacity

theorem Informed.legible (h : Informed options w) : Legible w :=
  ⟨h.coherent.fresh, h.wellFormed, h.never⟩

variable [LawfulNumbered E]

theorem Legible.remembered (h : Legible w) {e : E} (row : w.keeper.get (Entity.id e) = some e)
    (holds : w.Holds (Entity.id e)) : Remembered options e w :=
  ⟨row ▸ h.alone_get holds, h.alone_contains holds⟩

namespace Informed

variable (h : Informed options w)
include h

theorem keeper_read {record : Record E Int32} (reads : record.isRead = true) :
    ((Table.cached E options).call record w).state.keeper = w.keeper := by
  obtain ⟨deadline, fits⟩ := h.lives
  exact Lookaside.keeper_read h.writable h.filed fits reads

/-! ## One row -/

theorem get_row {id : Int32} {e : E}
    (value : ((Table.cached E options).call (.get id) w).value = .ok (.ok (.found (some e)))) :
    w.keeper.get id = some e := by
  obtain ⟨deadline, fits⟩ := h.lives
  obtain ⟨a, answered, transparent⟩ := (Table.serves_perform h.toAgreeing h.filed fits (.get id)).value
  cases answered.symm.trans value
  exact (Answer.found.inj (Except.ok.inj (Except.ok.inj transparent))).symm

theorem holds_get {e : E} (row : w.keeper.get (Entity.id e) = some e) (identity : Entity.hasIdentity e = true) :
    ((Table.cached E options).call (.get (Entity.id e)) w).state.Holds (Entity.id e) := by
  let p := (Table.cached E options).policy
  obtain ⟨deadline, fits⟩ := h.lives
  obtain ⟨key, keyed⟩ := Key.item_ok (E := E) (Entity.id e)
  cases found : (w.link.value? key).bind (Entity.decode? (E := E)) with
  | some e' =>
      have called := called_of_value h.writable h.filed fits (.get (Entity.id e)) rfl
        (Policy.get_of_hit keyed p Table.repository.get found).1
      exact called.holds_of_nothing h.wellFormed (World.holds_of_value? keyed found)
  | none =>
      have fetched : p.fetched key (Table.repository.get (Entity.id e) w.keeper).1 =
          p.scheduled (Policy.stores [e]) (.ok (some e)) := by
        rw [show (Table.repository.get (Entity.id e) w.keeper).1 = .ok (w.keeper.get (Entity.id e)) from rfl, row,
          Policy.fetched, if_pos identity, Policy.stores_singleton (Policy.cacheKey?_some.2 ⟨identity, keyed⟩)]
      have called := called_of_value h.writable h.filed fits (.get (Entity.id e)) rfl
        ((Policy.get_of_miss keyed p Table.repository.get found).1.trans fetched)
      exact called.holds_one h.wellFormed fits identity (Policy.fills_stores [e])
        (fun k cleared => absurd cleared (Policy.clear_notMem_stores _ k)) h.roomy

section

variable {e e' : E} (value : ((Table.cached E options).call (.save e) w).value = .ok (.ok (.written e')))
include value

theorem saved_of_value :
    ∃ n : Int32, w.keeper.save e = (.ok e', ({ w.keeper with nextId := n } : Table E).put e') := by
  obtain ⟨deadline, fits⟩ := h.lives
  obtain ⟨a, answered, transparent⟩ := (Table.serves_perform h.toAgreeing h.filed fits (.save e)).value
  cases answered.symm.trans value
  have given : (w.keeper.save e).1.map Answer.written = .ok (.written e') := (Except.ok.inj transparent).symm
  rcases w.keeper.written e with ⟨error, saved⟩ | ⟨e'', n, saved⟩ <;> rw [saved] at given <;> cases given
  exact ⟨n, saved⟩

theorem save_row :
    ((Table.cached E options).call (.save e) w).state.keeper.get (Entity.id e') = some e' := by
  obtain ⟨deadline, fits⟩ := h.lives
  obtain ⟨n, saved⟩ := h.saved_of_value value
  have keeper : ((Table.cached E options).call (.save e) w).state.keeper = (w.keeper.save e).2 :=
    (called_call h.writable h.filed fits (.save e)).1
  rw [keeper, saved, Table.get_put, if_pos rfl]

theorem holds_save (identity : Entity.hasIdentity e' = true) :
    ((Table.cached E options).call (.save e) w).state.Holds (Entity.id e') := by
  obtain ⟨deadline, fits⟩ := h.lives
  obtain ⟨n, saved⟩ := h.saved_of_value value
  have called := called_of_value h.writable h.filed fits (.save e) rfl
    (Policy.value_save (Table.cached E options).policy e (Table.repository.save e) w)
  rw [show (Table.repository.save e w.keeper).1 = (w.keeper.save e).1 from rfl, saved] at called
  have fills : (Policy.stores [e'] ++ [Change.clear (Key.family E)]).filterMap Change.fills? =
      [e'].filterMap Policy.cacheKey? := by
    rw [List.filterMap_append, Policy.fills_stores]
    exact List.append_nil _
  refine called.holds_one h.wellFormed fits identity fills (fun key cleared => ?_) h.roomy
  rcases List.mem_append.1 cleared with stored | family
  · exact absurd stored (Policy.clear_notMem_stores _ key)
  · cases List.mem_singleton.1 family
    rfl

end

/-! ## Several rows -/

theorem holds_many {ids : List Int32} (some_ids : ids ≠ [])
    (present : ∀ id ∈ ids, w.keeper.contains id = true) (identified : w.keeper.Identified)
    (room : ids.toFinset.card ≤ w.link.memory.store.capacity) :
    ((Table.cached E options).call (.getMany ids) w).value = .ok (.ok (.many (w.keeper.getMany ids))) ∧
      ∀ id ∈ ids, ((Table.cached E options).call (.getMany ids) w).state.Holds id := by
  let p := (Table.cached E options).policy
  obtain ⟨deadline, fits⟩ := h.lives
  have texts : ∀ id ∈ ids, Entity.renderId E id ≠ "" := fun id _ => Entity.renderId_ne_empty id
  have cached : ((p.readCached ids).run w).value = .ok (ids.mapM (w.link.cached? E)) := by
    rw [Policy.readCached, if_neg (by simpa using some_ids)]
    exact Policy.value_readMany texts h.wellFormed h.never
  constructor
  · obtain ⟨id, ids, rfl⟩ := List.exists_cons_of_ne_nil some_ids
    obtain ⟨a, answered, transparent⟩ :=
      (Table.serves_perform h.toAgreeing h.filed fits (.getMany (id :: ids))).value
    exact answered.trans (congrArg Except.ok (Except.ok.inj transparent))
  · intro id asked
    obtain ⟨e, row⟩ := Option.isSome_iff_exists.1 ((Table.contains_eq _ _).symm.trans (present id asked))
    cases found : ids.mapM (w.link.cached? E) with
    | some es =>
        -- every id was answered from the cache, so the entry of each is alive
        have called := called_many_of_hit h.writable h.filed fits (cached.trans (congrArg _ found))
        refine called.holds_of_nothing h.wellFormed ?_
        have read : w.link.cached? E id ≠ none := fun absent => by
          rw [mapM_none_iff.2 ⟨id, asked, absent⟩] at found
          cases found
        obtain ⟨e', read⟩ := Option.ne_none_iff_exists'.1 read
        refine World.holds_of_value? (Key.item_ok_iff.2 ⟨texts id asked, rfl⟩) (e := e') ?_
        rw [Cache.Link.value?_never h.never]
        exact read
    | none =>
        -- all are fetched anew, and a row is stored under its own id: there are no more keys than ids
        have rows : ∀ e ∈ w.keeper.getMany ids, Entity.id e ∈ ids := by
          intro e member
          obtain ⟨id', asked', row'⟩ := (Table.mem_getMany some_ids).1 member
          exact h.filed row' ▸ asked'
        have member : e ∈ w.keeper.getMany ids := (Table.mem_getMany some_ids).2 ⟨id, asked, row⟩
        have few : ((w.keeper.getMany ids).map (Entity.id (E := E))).toFinset ⊆ ids.toFinset := by
          intro id' listed
          obtain ⟨e', member', rfl⟩ := List.mem_map.1 (List.mem_toFinset.1 listed)
          exact List.mem_toFinset.2 (rows e' member')
        have holds := holds_of_miss h.writable h.filed fits (cached.trans (congrArg _ found)) h.wellFormed
          (Nat.le_trans (Finset.card_le_card few) room) member (identified e (Table.mem_all.2 ⟨id, row⟩))
        exact h.filed row ▸ holds

/-! ## All rows -/

section

variable {es : List E} {span : Span}
  (h' : Informed options ((Table.cached E options).call (.getMany []) w).state)
  (lasts : ((Table.cached E options).call (.getMany []) w).state.Lasts span)
include h' lasts

theorem lists_after_hit
    (hit : (((Table.cached E options).policy.readCached []).run w).value = .ok (some es)) :
    Lists options es (((Table.cached E options).call (.getMany []) w).state.wait span) := by
  obtain ⟨deadline, fits⟩ := h.lives
  have keeper : ((Table.cached E options).call (.getMany []) w).state.keeper = w.keeper :=
    h.keeper_read rfl
  have called := called_many_of_hit h.writable h.filed fits hit
  obtain ⟨counter?, valid, found, answer⟩ := Policy.readAll_hit hit
  rcases answer with ⟨some_found, agreed, -⟩ | ⟨rfl, allowed, ⟨bytes, marked, marks⟩, -⟩
  · have perm := h.legible.found_perm_found options (h'.legible.wait span) keeper h.filed
      (called.same_of_nothing h.wellFormed lasts)
    refine lists_of_found some_found (found ▸ perm) fun validates => ?_
    exact (congrArg Table.count keeper).trans (Agreeing.count_of_agrees valid validates agreed)
  · refine (h'.legible.wait span).lists_nothing h'.filed ?_ allowed (lasts.lookup? h'.wellFormed ?_) marks
    · exact (congrArg Table.all keeper).trans (h.coherent.marker marked)
    · obtain ⟨s, touched, stored⟩ := called.stored
      rw [stored, called.now]
      exact (touched.lookup?_eq h.wellFormed _).trans marked

theorem lists_after_miss (identified : w.keeper.Identified) (room : w.keeper.count ≤ w.link.memory.store.capacity)
    (allowed : w.keeper.count = 0 → options.allowZeroCount = true)
    (missed : (((Table.cached E options).policy.readCached []).run w).value = .ok none) :
    Lists options w.keeper.all (((Table.cached E options).call (.getMany []) w).state.wait span) := by
  obtain ⟨deadline, fits⟩ := h.lives
  have keeper : ((Table.cached E options).call (.getMany []) w).state.keeper = w.keeper :=
    h.keeper_read rfl
  by_cases no_rows : w.keeper.all = []
  · have allowed : options.allowZeroCount = true := allowed (by rw [← Table.length_all, no_rows]; rfl)
    have marks : (Table.cached E options).policy.collects true (w.keeper.getMany []) = [.mark (Key.family E)] := by
      rw [show w.keeper.getMany [] = [] from no_rows]
      exact if_pos allowed
    have called : Called deadline [.mark (Key.family E)] w
        ((Table.cached E options).call (.getMany []) w).state := by
      rw [← marks]
      exact called_many_of_miss h.writable h.filed fits missed
    obtain ⟨s, touched, stored⟩ := called.stored
    let marker : Entry := ⟨Key.family E, Marker.bytes, deadline⟩
    replace stored : ((Table.cached E options).call (.getMany []) w).state.link.memory.store = s.push marker := stored
    rw [no_rows]
    refine (h'.legible.wait span).lists_nothing h'.filed ((congrArg Table.all keeper).trans no_rows) allowed
      (lasts.lookup? h'.wellFormed ?_) marks_bytes
    rw [stored, called.now]
    exact Store.lookup?_of_find? (Store.find?_push_self (touched.capacity ▸ h.roomy) marker)
      (Memory.alive_of_deadline fits _ _)
  · exact lists_rows_of_miss h.writable h.filed fits missed h.wellFormed identified no_rows room h'.legible lasts

theorem lists_again (identified : w.keeper.Identified) (room : w.keeper.count ≤ w.link.memory.store.capacity)
    (allowed : w.keeper.count = 0 → options.allowZeroCount = true)
    (value : ((Table.cached E options).call (.getMany []) w).value = .ok (.ok (.many es))) :
    Lists options es (((Table.cached E options).call (.getMany []) w).state.wait span) := by
  obtain ⟨deadline, fits⟩ := h.lives
  obtain ⟨found, read⟩ := Agreeing.readCached_all options w
  cases found with
  | some es' =>
      cases (call_many_of_hit read).1.symm.trans value
      exact h.lists_after_hit h' lasts read
  | none =>
      cases (call_many_of_miss h.writable fits read).symm.trans value
      exact h.lists_after_miss h' lasts identified room allowed read

end

end Informed

/-! ## Runs -/

theorem informed_play {capacity : Nat} {memory : Memory} (made : Memory.create capacity = .ok memory)
    {turns : List (Turn E)} (own : ∀ turn ∈ turns, turn.isDirect = false)
    (fits : ∀ ttl, options.ttl = some ttl →
      Span.seconds (memory.now + Turn.elapsed turns + ttl) ≤ Memory.lastSecond) :
    Informed options (World.play options turns ⟨.ofMemory memory, .empty⟩) ∧
      (World.play options turns ⟨.ofMemory memory, .empty⟩).link.memory.store.capacity = capacity := by
  let start : World (Table E) := ⟨.ofMemory memory, .empty⟩
  obtain ⟨agreeing, filed, lives⟩ := agreeing_play made Cache.Faults.never_spareWrites fits own
  have never : (start.play options turns).link.faults = .never := (start.steady_play options turns).1
  have room : (start.play options turns).link.memory.store.capacity = capacity :=
    World.capacity_play made .never _ options turns
  exact ⟨⟨agreeing, never, filed, lives, room ▸ Memory.capacity_pos made⟩, room⟩

section

variable {capacity : Nat} {memory : Memory} (made : Memory.create capacity = .ok memory)
  {turns : List (Turn E)} (own : ∀ turn ∈ turns, turn.isDirect = false)
  (fits : ∀ ttl, options.ttl = some ttl →
    Span.seconds (memory.now + Turn.elapsed turns + ttl) ≤ Memory.lastSecond) (record : Record E Int32)
include made own fits

theorem informed_called :
    let r := (Table.cached E options).call record (World.play options turns ⟨.ofMemory memory, .empty⟩)
    Informed options r.state ∧
      (Table.creations (turns.filterMap Turn.record? ++ [record]) < 2147483647 → r.state.keeper.Identified) := by
  intro r
  have whole : World.play options (turns ++ [.call record]) ⟨.ofMemory memory, .empty⟩ = r.state :=
    List.foldl_append
  have own' : ∀ turn ∈ turns ++ [.call record], turn.isDirect = false :=
    List.forall_mem_append.2 ⟨own, List.forall_mem_singleton.2 rfl⟩
  have elapsed : Turn.elapsed (turns ++ [.call record]) = Turn.elapsed turns := by
    rw [Turn.elapsed, List.map_append, List.sum_append]
    rfl
  rw [← elapsed] at fits
  rw [← whole]
  refine ⟨(informed_play made own' fits).1, fun few => ?_⟩
  exact identified_play made Cache.Faults.never_spareWrites fits (by rw [List.filterMap_append]; exact few)

/-- After a call the cache spares the table the next one for the same rows, however long it takes to come as
long as nothing expires. -/
theorem warm_cache_spares_table
    (few : Table.creations (turns.filterMap Turn.record? ++ [record]) < 2147483647) :
    let w := World.play options turns ⟨.ofMemory memory, .empty⟩
    let r := (Table.cached E options).call record w
    ∀ answer, r.value = .ok (.ok answer) → ∀ span, r.state.Lasts span →
      Spared options capacity w.keeper record answer (r.state.wait span) := by
  intro w r answer value span lasts
  obtain ⟨h, rfl⟩ := informed_play made own fits
  obtain ⟨after, identified⟩ := informed_called made own fits record
  replace identified : r.state.keeper.Identified := identified few
  have legible := after.legible.wait span
  cases record with
  | count => trivial
  | contains id => trivial
  | delete e => trivial
  | get id =>
      cases answer with
      | found e? =>
          cases e? with
          | none => trivial
          | some e =>
              have row := h.get_row value
              obtain rfl := h.filed row
              have keeper : r.state.keeper = w.keeper := h.keeper_read rfl
              have row' : r.state.keeper.get (Entity.id e) = some e :=
                (congrArg (fun t : Table E => t.get (Entity.id e)) keeper).trans row
              have identity := identified e (Table.mem_all.2 ⟨_, row'⟩)
              exact legible.remembered row' ((h.holds_get row identity).wait lasts)
      | _ => trivial
  | save e =>
      cases answer with
      | written e' =>
          have row := h.save_row value
          have identity := identified e' (Table.mem_all.2 ⟨_, row⟩)
          exact legible.remembered row ((h.holds_save value identity).wait lasts)
      | _ => trivial
  | getMany ids =>
      have keeper : r.state.keeper = w.keeper := h.keeper_read rfl
      have before : w.keeper.Identified := keeper ▸ identified
      cases answer with
      | many es =>
          cases ids with
          | nil => exact fun room allowed => h.lists_again after lasts before room allowed value
          | cons id ids =>
              intro present room
              obtain ⟨value', holds⟩ := h.holds_many (List.cons_ne_nil id ids) present before room
              have same : (r.state.wait span).keeper.getMany (id :: ids) = es := by
                cases value'.symm.trans value
                exact congrArg (fun t : Table E => t.getMany (id :: ids)) keeper
              rw [← same]
              exact legible.alone_getMany (List.cons_ne_nil id ids) fun i asked => (holds i asked).wait lasts
      | _ => cases ids <;> trivial

end

theorem members_spared_table :
    let options : Policy.Options := ⟨true, true, some 500000000⟩
    let memory : Memory := ⟨⟨2, []⟩, 1000000000⟩
    let turns : List (Turn Member) :=
      [.call (.save ⟨0, "ada"⟩), .wait 7, .call (.save ⟨0, "bob"⟩), .call (.save ⟨0, "cid"⟩)]
    let record : Record Member Int32 := .getMany [3, 1, 3]
    let answer : Answer Member := .many [⟨3, "cid"⟩, ⟨1, "ada"⟩, ⟨3, "cid"⟩]
    let w := World.play options turns ⟨.ofMemory memory, .empty⟩
    let r := (Table.cached Member options).call record w
    Memory.create 2 = .ok memory ∧ (∀ turn ∈ turns, turn.isDirect = false) ∧
      (∀ ttl, options.ttl = some ttl →
        Span.seconds (memory.now + Turn.elapsed turns + ttl) ≤ Memory.lastSecond) ∧
      Table.creations (turns.filterMap Turn.record? ++ [record]) < 2147483647 ∧
      r.value = .ok (.ok answer) ∧ r.notes.filterMap Note.errand? = [.fetchMany [3, 1, 3]] ∧
      r.state.Lasts 500000000 ∧ Alone options record answer (r.state.wait 500000000) := by
  intro options memory turns record answer w r
  have own : ∀ turn ∈ turns, turn.isDirect = false := by decide
  have fits : ∀ ttl, options.ttl = some ttl →
      Span.seconds (memory.now + Turn.elapsed turns + ttl) ≤ Memory.lastSecond := by
    rintro _ ⟨⟩
    decide
  have few : Table.creations (turns.filterMap Turn.record? ++ [record]) < 2147483647 := by decide
  have value : r.value = .ok (.ok answer) := by
    dsimp only [r, w, answer, record, turns, memory, options]
    cbv
  have errands : r.notes.filterMap Note.errand? = [.fetchMany [3, 1, 3]] := by
    dsimp only [r, w, answer, record, turns, memory, options]
    cbv
  have lasts : r.state.Lasts 500000000 := by
    have left : r.state.link.memory =
        ⟨⟨2, [⟨"uRepo_Member_3", Member.format.encode ⟨3, "cid"⟩, some 1500000007⟩,
          ⟨"uRepo_Member_1", Member.format.encode ⟨1, "ada"⟩, some 1500000007⟩]⟩, 1000000007⟩ := by
      dsimp only [r, w, answer, record, turns, memory, options]
      cbv
    rw [World.Lasts, left]
    decide
  have present : [(3 : Int32), 1, 3].all w.keeper.contains = true := by
    dsimp only [w, turns, memory, options]
    cbv
  have spared := warm_cache_spares_table (show Memory.create 2 = .ok memory from rfl) own fits record few
  refine ⟨rfl, own, fits, few, value, errands, lasts, ?_⟩
  exact spared answer value 500000000 lasts (List.all_eq_true.1 present) (by decide)

/-! ## Ids that have run out -/

theorem Agreeing.value?_none (h : Agreeing w) {id : Int32} (spent : ¬ 0 < id) {key : String}
    (keyed : Key.item E id = .ok key) : w.link.value? key = none := by
  cases found : w.link.value? key with
  | none => rfl
  | some value =>
      obtain ⟨x, member, rfl, -, -⟩ := Store.lookup?_some (Cache.Link.value?_some found)
      rcases h.coherent x member with ⟨family, -⟩ | ⟨id', e, positive, keyed', -⟩
      · exact absurd family (Key.item_ne_family keyed)
      · cases Key.item_injective DistinctIds.renderId_injective keyed' keyed
        exact absurd positive spent

theorem Informed.fetches (h : Informed options w) {id : Int32} (spent : ¬ 0 < id) :
    ((Table.cached E options).call (.get id) w).notes.filterMap Note.errand? = [.fetch id] := by
  obtain ⟨deadline, fits⟩ := h.lives
  obtain ⟨key, keyed⟩ := Key.item_ok (E := E) id
  have missed : (w.link.value? key).bind (Entity.decode? (E := E)) = none := by
    rw [h.toAgreeing.value?_none spent keyed]
    rfl
  obtain ⟨w', notes, unasked, run, -⟩ := (Table.cached E options).call_of_writable (.get id) rfl h.writable fits
  rw [run, List.filterMap_append, Note.errands_of_asked unasked, List.append_nil]
  exact (Policy.get_of_miss keyed _ _ missed).2.2

theorem nextId_play {capacity : Nat} {memory : Memory} (made : Memory.create capacity = .ok memory)
    {turns : List (Turn E)} (fits : ∀ ttl, options.ttl = some ttl →
      Span.seconds (memory.now + Turn.elapsed turns + ttl) ≤ Memory.lastSecond) :
    (World.play options turns ⟨.ofMemory memory, .empty⟩).keeper.nextId =
      1 + Int32.ofNat (Table.creations (turns.filterMap Turn.record?)) := by
  have tracked : Tracked options (Turn.elapsed turns + 0) (⟨.ofMemory memory, .empty⟩ : World (Table E)) :=
    tracked_start made Cache.Faults.never_spareWrites fits
  rw [tracked.keeper_play, Table.nextId_after]
  rfl

theorem fetches_spent {capacity : Nat} {memory : Memory} (made : Memory.create capacity = .ok memory)
    {turns : List (Turn E)} (own : ∀ turn ∈ turns, turn.isDirect = false)
    (fits : ∀ ttl, options.ttl = some ttl →
      Span.seconds (memory.now + Turn.elapsed turns + ttl) ≤ Memory.lastSecond)
    {e : E} (new : Table.creates e = true) {id : Int32}
    (next : 1 + Int32.ofNat (Table.creations (turns.filterMap Turn.record?)) = id) (spent : ¬ 0 < id) :
    let r := (Table.cached E options).call (.save e) (World.play options turns ⟨.ofMemory memory, .empty⟩)
    let again := (Table.cached E options).call (.get id) r.state
    r.value = .ok (.ok (.written (NumberedEntity.withId id e))) ∧
      again.value = .ok (.ok (.found (some (NumberedEntity.withId id e)))) ∧
      again.notes.filterMap Note.errand? = [.fetch id] := by
  intro r again
  have h := (informed_play made own fits).1
  have after := (informed_called made own fits (.save e)).1
  rw [← nextId_play made fits] at next
  obtain ⟨deadline, lives⟩ := h.lives
  obtain ⟨deadline', lives'⟩ := after.lives
  have value : r.value = .ok (.ok (.written (NumberedEntity.withId id e))) := by
    refine call_value h.writable lives (.save e) rfl (Policy.result_save _ e (Table.repository.save e) _ |>.trans ?_)
    rw [show (Table.repository.save e _).1 = (Table.save _ e).1 from rfl, Table.save_new _ new, next]
    rfl
  have row := h.save_row value
  rw [LawfulNumbered.id_withId] at row
  have found := call_value after.writable lives' (.get id) rfl (result_get_of_fresh after.coherent.fresh _ id)
  rw [row] at found
  exact ⟨value, found, after.fetches spent⟩

/-- All the positive ids have been given out when one more row is added. -/
theorem spent_ids_ask_again :
    let options : Policy.Options := ⟨false, false, none⟩
    let memory : Memory := ⟨⟨1, []⟩, 1000000000⟩
    let turns : List (Turn Member) := List.replicate 2147483647 (.call (.save ⟨0, "ada"⟩))
    let r := (Table.cached Member options).call (.save ⟨0, "ada"⟩)
      (World.play options turns ⟨.ofMemory memory, .empty⟩)
    let again := (Table.cached Member options).call (.get (-2147483648)) r.state
    Memory.create 1 = .ok memory ∧ (∀ turn ∈ turns, turn.isDirect = false) ∧
      r.value = .ok (.ok (.written ⟨-2147483648, "ada"⟩)) ∧
      again.value = .ok (.ok (.found (some ⟨-2147483648, "ada"⟩))) ∧
      again.notes.filterMap Note.errand? = [.fetch (-2147483648)] := by
  intro options memory turns r again
  have new : Table.creates (⟨0, "ada"⟩ : Member) = true := by decide
  have own : ∀ turn ∈ turns, turn.isDirect = false := by
    intro turn member
    rw [List.eq_of_mem_replicate member]
    rfl
  have made : Memory.create 1 = .ok memory := rfl
  refine ⟨made, own, ?_⟩
  have saves : turns.filterMap Turn.record? = List.replicate 2147483647 (.save ⟨0, "ada"⟩) :=
    List.filterMap_replicate_of_some rfl
  refine fetches_spent made own (by rintro _ ⟨⟩) new ?_ (by decide)
  rw [saves, Table.creations_replicate new]
  decide

end Lookaside
