import Lookaside.Proofs.Holding
import Mathlib

/-!
# Rows written past the cache

Rows that are written past the cache leave outdated items in it, and maybe a marker that there are none. A
request for all rows that goes to the table puts every item right. A marker that is left behind does no harm:
as long as it is alive some item is, and where an item is found nobody looks for a marker. Where no row can be
cached there is none left behind, because it would have been found instead of the table being asked.
-/

namespace Lookaside

open Repository

variable {E : Type} [NumberedEntity E]

/-- The answer of the table, with the rows in whatever order if all are asked for. -/
def Faithful : Record E Int32 → Except RepositoryError (Answer E) →
    Except Overflow (Except RepositoryError (Answer E)) → Prop
  | .getMany [], bare, cached =>
    ∃ rows es, bare = .ok (.many rows) ∧ cached = .ok (.ok (.many es)) ∧ es.Perm rows
  | _, bare, cached => cached = .ok bare

/-! ## Markers that are left behind -/

/-- As long as a marker under a key is alive, so is an entry under another key. -/
def Memory.Screens (key : String) (m : Memory) : Prop :=
  ∀ later ≥ m.now, (∃ x ∈ m.store.entries, x.key = key ∧ Marker.isMarker x.value = true ∧
    x.isExpired later = false) → ∃ x ∈ m.store.entries, x.key ≠ key ∧ x.isExpired later = false

theorem Memory.Timely.outlived {m : Memory} {ttl : Option Span} {deadline : Option Nat} (h : m.Timely ttl)
    (fits : m.deadline ttl = .ok deadline) {x : Entry} (member : x ∈ m.store.entries) {later : Nat}
    (live : x.isExpired later = false) (key : String) (value : Bytes) :
    Entry.isExpired later ⟨key, value, deadline⟩ = false := by
  cases ttl with
  | none =>
      cases fits
      rfl
  | some span =>
      obtain ⟨d, lives, le⟩ := h span rfl x member
      rw [Memory.deadline_some fits]
      rw [Entry.isExpired, lives] at live
      exact decide_eq_false (Nat.not_lt.2 (Nat.le_trans (Nat.not_lt.1 (of_decide_eq_false live)) le))

variable {w w' : World (Table E)} {options : Policy.Options} {deadline : Option Nat}

variable [LawfulNumbered E]

theorem Called.screens {changes : List (Change E)} (called : Called deadline changes w w')
    (wf : w.link.memory.store.WellFormed) {ttl : Option Span} (fits : w.link.memory.deadline ttl = .ok deadline)
    (timely : w.link.memory.Timely ttl) (roomy : 0 < w.link.memory.store.capacity)
    (stores : ∀ change ∈ changes, ∃ key e, change = .store key e)
    (screens : changes = [] → w.link.memory.Screens (Key.family E)) : w'.link.memory.Screens (Key.family E) := by
  intro later le ⟨x, member, family, marks, live⟩
  obtain ⟨s, touched, stored⟩ := called.stored
  rcases changes.eq_nil_or_concat' with rfl | ⟨earlier, last, rfl⟩
  · replace stored : w'.link.memory.store = s := stored
    rw [called.now] at le
    obtain ⟨y, there, item, lives⟩ := screens rfl later le ⟨x, touched.mem (stored ▸ member), family, marks, live⟩
    exact ⟨y, stored ▸ touched.mem_of_live wf there (Entry.isExpired_of_le le lives), item, lives⟩
  · -- what was stored last is in front, and nothing outlives it
    obtain ⟨key, e, rfl⟩ := stores last (List.mem_append_right _ List.mem_cons_self)
    obtain ⟨id, -, keyed, -⟩ := called.accounts.asked _ (List.mem_append_right _ List.mem_cons_self)
    obtain ⟨value, encoded, -⟩ := LawfulNumbered.decode?_encode e
    let front : Entry := ⟨key, value, deadline⟩
    have pushed : w'.link.memory.store = (earlier.foldl (Change.make deadline) s).push front := by
      rw [stored, List.foldl_append, List.foldl_cons, List.foldl_nil, Change.make, encoded]
    have room : 0 < (earlier.foldl (Change.make deadline) s).capacity := by
      rw [Store.capacity_foldl_make, touched.capacity]
      exact roomy
    have first : front ∈ w'.link.memory.store.entries :=
      pushed ▸ (Store.find?_some (Store.find?_push_self room front)).1
    refine ⟨front, first, Key.item_ne_family keyed, ?_⟩
    exact (called.timely fits timely).outlived ((Memory.deadline_congr called.now ttl).trans fits) member live _ _

/-! ## Reads -/

section

variable (writable : w.link.faults.SpareWrites) (filed : w.keeper.Filed)
  (fits : w.link.memory.deadline options.ttl = .ok deadline)
include writable filed fits

theorem called_read {record : Record E Int32} (reads : record.isRead = true) :
    ((Table.cached E options).call record w).state.keeper = w.keeper ∧
      ∃ changes, Called deadline changes w ((Table.cached E options).call record w).state ∧
        (w.keeper.all ≠ [] → ∀ change ∈ changes, ∃ key e, change = .store key e) := by
  -- only a request for all rows may write a marker, and where there are rows it does not
  have still := keeper_read writable filed fits reads
  cases given : (Table.cached E options).operation? record with
  | none =>
      cases record with
      | count => exact ⟨rfl, [], ⟨Table.accounts_nil _, rfl, _, .refl _, rfl⟩, fun _ => List.forall_mem_nil _⟩
      | _ => cases given
  | some operation =>
      have called := (called_operation writable filed fits record given).2
      refine ⟨still, _, called, fun some_rows change member => ?_⟩
      cases change with
      | store key e => exact ⟨key, e, rfl⟩
      | mark key =>
          have asked := called.accounts.asked _ member
          rw [still] at asked
          exact absurd asked.2 some_rows
      | clear key =>
          rcases (operation.causes_defer (Table.cached E options).policy w member).writes with
            ⟨e, persist, rfl⟩ | ⟨e, persist, rfl⟩ <;> cases record <;> cases given <;> cases reads

end

structure Healed (options : Policy.Options) (t : Table E) (w : World (Table E)) : Prop extends Legible w where
  keeper : w.keeper = t
  timely : w.link.memory.Timely options.ttl
  roomy : 0 < w.link.memory.store.capacity
  screens : options.allowZeroCount = true → t.all ≠ [] → w.link.memory.Screens (Key.family E)

namespace Healed

variable {t : Table E}

omit [LawfulNumbered E] in
theorem wait (h : Healed options t w) (span : Span) : Healed options t (w.wait span) where
  toLegible := h.toLegible.wait span
  keeper := h.keeper
  timely ttl given x member := by
    obtain ⟨d, lives, le⟩ := h.timely ttl given x member
    exact ⟨d, lives, Nat.le_trans le (Nat.add_le_add_right (Nat.le_add_right _ span) ttl)⟩
  roomy := h.roomy
  screens allowed some_rows later le :=
    h.screens allowed some_rows later (Nat.le_trans (Nat.le_add_right _ span) le)

variable (h : Healed options t w)
include h

theorem honest (shown : w.ShowsNone options) : t.all = [] := by
  by_contra some_rows
  obtain ⟨none_found, allowed, value, marked, marks⟩ := shown
  obtain ⟨x, member, family, live, rfl⟩ := Store.lookup?_some marked
  obtain ⟨y, there, item, lives⟩ :=
    h.screens allowed some_rows _ (Nat.le_refl _) ⟨x, member, family, marks, live⟩
  -- an item that is alive is found
  rcases h.fresh y there item with ⟨family, -⟩ | ⟨id, e, -, keyed, -, encoded⟩
  · exact item family
  · have found : e ∈ (Table.cached E options).policy.found w.link :=
      h.toLegible.mem_found.2 ⟨y, there, Key.isItem_item keyed, lives, Table.decode?_eq encoded⟩
    rw [none_found] at found
    cases found

theorem read (filed : t.Filed) (validates : options.validateCount = true)
    (fits : w.link.memory.deadline options.ttl = .ok deadline) {record : Record E Int32}
    (reads : record.isRead = true) :
    Faithful record (Table.repository.perform record t).1 ((Table.cached E options).call record w).value ∧
      Healed options t ((Table.cached E options).call record w).state ∧
      ((Table.cached E options).call record w).state.link.memory.now = w.link.memory.now := by
  obtain rfl := h.keeper
  have writable : w.link.faults.SpareWrites := h.never ▸ Cache.Faults.never_spareWrites
  refine ⟨?_, ?_⟩
  · cases record with
    | get id => exact call_value writable fits (.get id) rfl (result_get_of_fresh h.fresh _ id)
    | contains id => exact call_value writable fits (.contains id) rfl (value_contains_of_fresh h.fresh id)
    | count => rfl
    | getMany ids =>
        cases ids with
        | nil =>
            obtain ⟨es, result, selected⟩ := Agreeing.result_all options h.fresh h.wellFormed filed h.honest
            rw [Selects, if_pos validates] at selected
            exact ⟨_, es, rfl, call_value writable fits (.getMany []) rfl result, selected⟩
        | cons id ids =>
            exact call_value writable fits (.getMany (id :: ids)) rfl
              (result_getMany_of_fresh h.fresh (fun _ => Agreeing.counter_still) h.wellFormed (List.cons_ne_nil id ids))
    | save e => cases reads
    | delete e => cases reads
  · obtain ⟨keeper, changes, called, stores⟩ := called_read writable filed fits reads
    have steady := (Table.cached E options).steady_perform record
    refine ⟨⟨⟨called.fresh h.fresh, called.wellFormed h.wellFormed, (steady.faults w).trans h.never⟩, keeper,
      called.timely fits h.timely, (steady.capacity w).symm ▸ h.roomy, fun allowed some_rows => ?_⟩, called.now⟩
    exact called.screens h.wellFormed fits h.timely h.roomy (stores some_rows)
      fun _ => h.screens allowed some_rows

theorem answers {reads : List (Span × Record E Int32)} (reading : ∀ call ∈ reads, call.2.isRead = true)
    (filed : t.Filed) (validates : options.validateCount = true)
    (fits : w.Fits options (reads.map (·.1)).sum) :
    List.Forall₂ (fun call cached => Faithful call.1 call.2 cached)
      ((reads.map (·.2)).zip (Table.repository.answers (reads.map (·.2)) t))
      ((Table.cached E options).answers reads w) := by
  induction reads generalizing w with
  | nil => exact .nil
  | cons call reads ih =>
      obtain ⟨span, record⟩ := call
      rw [List.forall_mem_cons] at reading
      have fits' : (w.wait span).Fits options (reads.map (·.1)).sum :=
        fits.of_le (by rw [List.map_cons, List.sum_cons, ← Nat.add_assoc]; exact Nat.le_refl _)
      obtain ⟨deadline, lives⟩ := Memory.deadline_ok fits'
      obtain ⟨faithful, healed, now⟩ := (h.wait span).read filed validates lives reading.1
      refine .cons faithful ?_
      rw [t.perform_read reading.1]
      exact ih healed reading.2 (fits'.of_le (Nat.le_of_eq (congrArg (· + _) now)))

end Healed

/-! ## The request that goes to the table -/

namespace Tracked

variable {later : Span} (h : Tracked options later w)
include h

theorem renewed {x : Entry} (member : x ∈ w.link.memory.store.entries) (item : x.key ≠ Key.family E) :
    ∃ e, .store x.key e ∈ (Table.cached E options).policy.collects true w.keeper.all := by
  obtain ⟨id, e, positive, keyed, row⟩ := h.known x member item
  have listed : e ∈ w.keeper.all := Table.mem_all.2 ⟨id, row⟩
  obtain rfl := h.filed row
  rw [Policy.collects_of_mem _ _ listed]
  exact ⟨e, Policy.store_mem_stores listed
    (Policy.cacheKey?_some.2 ⟨(LawfulNumbered.hasIdentity_iff e).2 positive, keyed⟩)⟩

variable (never : w.link.faults = .never)
  (missed : (((Table.cached E options).policy.readCached []).run w).value = .ok none)
include never missed

theorem screens_of_miss (allowed : options.allowZeroCount = true)
    (nothing : (Table.cached E options).policy.collects true w.keeper.all = []) :
    w.link.memory.Screens (Key.family E) := by
  intro later le ⟨x, member, family, marks, live⟩
  have none_found : (Table.cached E options).policy.found w.link = [] := by
    refine List.eq_nil_iff_forall_not_mem.2 fun e found => ?_
    obtain ⟨y, among, -⟩ := List.mem_filterMap.1 found
    obtain ⟨scanned, item⟩ := List.mem_filter.1 among
    obtain ⟨x', there, -, -, rfl⟩ := Store.mem_scan.1 (Cache.Link.mem_values scanned)
    obtain ⟨e', stored⟩ := h.renewed there (Key.ne_family_of_isItem item)
    rw [nothing] at stored
    cases stored
  have marked := h.wellFormed.lookup?_eq member (Entry.isExpired_of_le le live)
  rw [family] at marked
  have hit := Agreeing.hit_of_shown never ⟨none_found, allowed, _, marked, marks⟩
  cases hit.symm.trans missed

theorem healed (roomy : 0 < w.link.memory.store.capacity) :
    Healed options w.keeper ((Table.cached E options).call (.getMany []) w).state := by
  obtain ⟨deadline, fits⟩ := Memory.deadline_ok h.fits
  have called := called_many_of_miss h.writable h.filed fits missed
  have keeper : ((Table.cached E options).call (.getMany []) w).state.keeper = w.keeper :=
    keeper_read h.writable h.filed fits rfl
  have steady := (Table.cached E options).steady_perform (.getMany [])
  refine ⟨⟨?_, called.wellFormed h.wellFormed, (steady.faults w).trans never⟩, keeper,
    called.timely fits h.timely, (steady.capacity w).symm ▸ roomy, fun allowed some_rows => ?_⟩
  · intro x member item
    rcases called.mem member with ⟨backed, -⟩ | ⟨old, untouched⟩
    · exact backed
    · obtain ⟨e, stored⟩ := h.renewed old item
      exact absurd (List.mem_map_of_mem stored) untouched
  · obtain ⟨e, member⟩ := List.exists_mem_of_ne_nil _ some_rows
    refine called.screens h.wellFormed fits h.timely roomy ?_ (h.screens_of_miss never missed allowed)
    intro change asked
    rw [show w.keeper.getMany [] = w.keeper.all from rfl, Policy.collects_of_mem _ _ member] at asked
    obtain ⟨e', -, key, -, rfl⟩ := Policy.mem_stores asked
    exact ⟨key, e', rfl⟩

end Tracked

/-- Whatever has been written past the cache, a request for all rows that goes to the table makes the cache answer
as the table does until the next write. If there is room for the rows, and the ids have not run out, the table is
not asked for them again. -/
theorem count_mismatch_heals {capacity : Nat} {memory : Memory} (made : Memory.create capacity = .ok memory)
    (validates : options.validateCount = true) {turns : List (Turn E)} {reads : List (Span × Record E Int32)}
    (reading : ∀ call ∈ reads, call.2.isRead = true)
    (fits : ∀ ttl, options.ttl = some ttl →
      Span.seconds (memory.now + (Turn.elapsed turns + (reads.map (·.1)).sum) + ttl) ≤ Memory.lastSecond) :
    let w := World.play options turns ⟨.ofMemory memory, .empty⟩
    let r := (Table.cached E options).call (.getMany []) w
    .fetchMany [] ∈ r.notes.filterMap Note.errand? →
      r.value = .ok (.ok (.many w.keeper.all)) ∧ r.state.keeper = w.keeper ∧
        List.Forall₂ (fun call cached => Faithful call.1 call.2 cached)
          ((reads.map (·.2)).zip (Table.repository.answers (reads.map (·.2)) w.keeper))
          ((Table.cached E options).answers reads r.state) ∧
        (Table.creations (turns.filterMap Turn.record?) < 2147483647 → 1 ≤ w.keeper.count →
          w.keeper.count ≤ capacity → ∀ span, r.state.Lasts span →
            Lists options w.keeper.all (r.state.wait span)) := by
  intro w r asked
  let start : World (Table E) := ⟨.ofMemory memory, .empty⟩
  have tracked : Tracked options (reads.map (·.1)).sum w :=
    (tracked_start made Cache.Faults.never_spareWrites fits).play
  have never : w.link.faults = .never := (start.steady_play options turns).1
  have room : w.link.memory.store.capacity = capacity := World.capacity_play made .never _ options turns
  obtain ⟨deadline, lives⟩ := Memory.deadline_ok tracked.fits
  have missed : (((Table.cached E options).policy.readCached []).run w).value = .ok none := by
    obtain ⟨found, read⟩ := Agreeing.readCached_all options w
    cases found with
    | none => exact read
    | some es => exact absurd ((call_many_of_hit read).2 ▸ asked) List.not_mem_nil
  have healed := tracked.healed never missed (room ▸ Memory.capacity_pos made)
  have now : r.state.link.memory.now = w.link.memory.now :=
    (called_many_of_miss tracked.writable tracked.filed lives missed).now
  have fits_run : ∀ ttl, options.ttl = some ttl →
      Span.seconds (memory.now + Turn.elapsed turns + ttl) ≤ Memory.lastSecond := by
    refine fun ttl given => Nat.le_trans (Nat.div_le_div_right (Nat.add_le_add_right ?_ ttl)) (fits ttl given)
    exact Nat.add_le_add_left (Nat.le_add_right _ _) _
  refine ⟨call_many_of_miss tracked.writable lives missed, healed.keeper, ?_, ?_⟩
  · exact healed.answers reading tracked.filed validates (tracked.fits.of_le (Nat.le_of_eq (congrArg (· + _) now)))
  · intro few some_rows fewer span lasts
    have identified := identified_play made Cache.Faults.never_spareWrites fits_run few
    refine lists_rows_of_miss tracked.writable tracked.filed lives missed tracked.wellFormed identified ?_
      (room ▸ fewer) healed.toLegible lasts
    intro empty
    rw [← Table.length_all, empty] at some_rows
    cases some_rows

theorem members_healed :
    let options : Policy.Options := ⟨true, true, some 500000000⟩
    let memory : Memory := ⟨⟨3, []⟩, 1000000000⟩
    let turns : List (Turn Member) :=
      [.call (.save ⟨0, "ada"⟩), .direct ⟨1, "eve"⟩, .wait 7, .direct ⟨0, "bob"⟩]
    let reads : List (Span × Record Member Int32) := [(0, .get 1), (9, .getMany []), (0, .getMany [2, 1])]
    let w := World.play options turns ⟨.ofMemory memory, .empty⟩
    let r := (Table.cached Member options).call (.getMany []) w
    let answers := Table.repository.answers (reads.map (·.2)) w.keeper
    Memory.create 3 = .ok memory ∧ options.validateCount = true ∧ (∀ call ∈ reads, call.2.isRead = true) ∧
      (∀ ttl, options.ttl = some ttl →
        Span.seconds (memory.now + (Turn.elapsed turns + (reads.map (·.1)).sum) + ttl) ≤ Memory.lastSecond) ∧
      Table.creations (turns.filterMap Turn.record?) < 2147483647 ∧
      ((Table.cached Member options).call (.get 1) w).value = .ok (.ok (.found (some ⟨1, "ada"⟩))) ∧
      .fetchMany [] ∈ r.notes.filterMap Note.errand? ∧
      answers = [.ok (.found (some ⟨1, "eve"⟩)), .ok (.many [⟨1, "eve"⟩, ⟨2, "bob"⟩]),
        .ok (.many [⟨2, "bob"⟩, ⟨1, "eve"⟩])] ∧
      List.Forall₂ (fun call cached => Faithful call.1 call.2 cached) ((reads.map (·.2)).zip answers)
        ((Table.cached Member options).answers reads r.state) ∧
      Lists options w.keeper.all (r.state.wait 0) := by
  intro options memory turns reads w r answers
  have reading : ∀ call ∈ reads, call.2.isRead = true := by decide
  have fits : ∀ ttl, options.ttl = some ttl →
      Span.seconds (memory.now + (Turn.elapsed turns + (reads.map (·.1)).sum) + ttl) ≤ Memory.lastSecond := by
    rintro _ ⟨⟩
    decide
  have few : Table.creations (turns.filterMap Turn.record?) < 2147483647 := by decide
  have stale : ((Table.cached Member options).call (.get 1) w).value =
      .ok (.ok (.found (some ⟨1, "ada"⟩))) := by
    dsimp only [w, turns, memory, options]
    cbv
  have errands : r.notes.filterMap Note.errand? = [.fetchMany []] := by
    dsimp only [r, w, turns, memory, options]
    cbv
  have count : w.keeper.count = 2 := by
    dsimp only [w, turns, memory, options]
    cbv
  have answered : answers = [.ok (.found (some ⟨1, "eve"⟩)), .ok (.many [⟨1, "eve"⟩, ⟨2, "bob"⟩]),
      .ok (.many [⟨2, "bob"⟩, ⟨1, "eve"⟩])] := by
    dsimp only [answers, reads, w, turns, memory, options]
    cbv
  have asked : .fetchMany [] ∈ r.notes.filterMap Note.errand? := errands ▸ List.mem_cons_self
  obtain ⟨-, -, faithful, lists⟩ :=
    count_mismatch_heals (show Memory.create 3 = .ok memory from rfl) rfl reading fits asked
  refine ⟨rfl, rfl, reading, fits, few, stale, asked, answered, faithful, ?_⟩
  exact lists few (by rw [count]; decide) (by rw [count]; decide) 0 fun _ _ live => live

/-! ## Ids that have run out -/

/-- A row without identity is never found, so neither are as many rows as there are. -/
theorem Healed.fetches_all {t : Table E} (h : Healed options t w) (filed : t.Filed)
    (validates : options.validateCount = true) (fits : w.link.memory.deadline options.ttl = .ok deadline)
    {id : Int32} {e : E} (row : t.get id = some e) (spent : ¬ 0 < id) :
    ((Table.cached E options).call (.getMany []) w).notes.filterMap Note.errand? = [.fetchMany []] := by
  obtain rfl := h.keeper
  have writable : w.link.faults.SpareWrites := h.never ▸ Cache.Faults.never_spareWrites
  obtain ⟨found, read⟩ := Agreeing.readCached_all options w
  cases found with
  | none => exact errands_of_miss writable fits read
  | some es =>
      have selected := Agreeing.selects_of_hit h.fresh h.wellFormed filed h.honest read
      obtain ⟨-, -, found, -⟩ := Policy.readAll_hit read
      rw [Selects, if_pos validates] at selected
      have listed : e ∈ (Table.cached E options).policy.found w.link :=
        found ▸ selected.symm.subset (Table.mem_all.2 ⟨id, row⟩)
      obtain ⟨id', positive, row'⟩ := (Agreeing.found_rows options h.fresh h.wellFormed filed).2 e listed
      rw [← filed row', filed row] at positive
      exact absurd positive spent

omit [LawfulNumbered E] in
theorem World.link_play_direct {turns : List (Turn E)} (past : ∀ turn ∈ turns, turn.isDirect = true) :
    (w.play options turns).link = w.link := by
  induction turns generalizing w with
  | nil => rfl
  | cons turn turns ih =>
      rw [List.forall_mem_cons] at past
      refine (ih past.2).trans ?_
      cases turn with
      | direct e => rfl
      | _ => cases past.1

omit [LawfulNumbered E] in
theorem healed_play_direct {capacity : Nat} {memory : Memory} (made : Memory.create capacity = .ok memory)
    {turns : List (Turn E)} (past : ∀ turn ∈ turns, turn.isDirect = true) (options : Policy.Options) :
    let w := World.play options turns ⟨.ofMemory memory, .empty⟩
    Healed options w.keeper w := by
  intro w
  -- nothing has gone through the cache yet
  have link : w.link = .ofMemory memory := World.link_play_direct past
  have empty : w.link.memory.store = ⟨capacity, []⟩ := by
    rw [link, Memory.create_ok made]
    rfl
  refine ⟨⟨?_, ?_, congrArg Cache.Link.faults link⟩, rfl, ?_, ?_, fun _ _ => ?_⟩
  · rw [empty]
    exact nofun
  · rw [empty]
    exact Store.wellFormed_nil _
  · rw [Memory.Timely, empty]
    exact fun _ _ => nofun
  · rw [empty]
    exact Memory.capacity_pos made
  · rw [Memory.Screens, empty]
    rintro later - ⟨x, member, -⟩
    cases member

theorem fetches_all_spent {capacity : Nat} {memory : Memory} (made : Memory.create capacity = .ok memory)
    (validates : options.validateCount = true) (unlimited : options.ttl = none) {e : E}
    (new : Table.creates e = true) {n : Nat} (spent : ¬ 0 < 1 + Int32.ofNat n) :
    let w := World.play options (List.replicate (n + 1) (.direct e)) ⟨.ofMemory memory, .empty⟩
    let r := (Table.cached E options).call (.getMany []) w
    r.notes.filterMap Note.errand? = [.fetchMany []] ∧ 1 ≤ w.keeper.count ∧ w.keeper.count ≤ n + 1 ∧
      ((Table.cached E options).call (.getMany []) r.state).notes.filterMap Note.errand? = [.fetchMany []] := by
  intro w r
  have eternal (w : World (Table E)) : w.link.memory.deadline options.ttl = .ok none := by
    rw [unlimited]
    rfl
  have start : Tracked options (Turn.elapsed (List.replicate (n + 1) (.direct e)) + 0)
      (⟨.ofMemory memory, .empty⟩ : World (Table E)) := by
    refine tracked_start made Cache.Faults.never_spareWrites fun ttl given => ?_
    rw [unlimited] at given
    cases given
  have filed : w.keeper.Filed := start.play.filed
  have keeper : w.keeper = Table.empty.after (List.replicate (n + 1) (.save e)) := by
    rw [start.keeper_play, List.filterMap_replicate_of_some (show Turn.record? (.direct e) = some (.save e) from rfl)]
  have row : w.keeper.get (1 + Int32.ofNat n) = some (NumberedEntity.withId (1 + Int32.ofNat n) e) := by
    rw [keeper, List.replicate_succ']
    exact Table.get_after_new _ _ new (by rw [Table.creations_replicate new]; rfl)
  have healed : Healed options w.keeper w := by
    refine healed_play_direct made (fun turn member => ?_) options
    rw [List.eq_of_mem_replicate member]
    rfl
  have reads : Record.isRead (.getMany [] : Record E Int32) = true := rfl
  obtain ⟨-, healed', -⟩ := healed.read filed validates (eternal w) reads
  refine ⟨healed.fetches_all filed validates (eternal w) row spent, ?_, ?_,
    healed'.fetches_all filed validates (eternal r.state) row spent⟩
  · rw [← Table.length_all]
    exact List.length_pos_of_mem (Table.mem_all.2 ⟨_, row⟩)
  · rw [keeper]
    refine Nat.le_trans (Table.count_after_le _ _) ?_
    rw [Table.creations_replicate new]
    exact Nat.le_of_eq (Nat.zero_add _)

/-- All the positive ids have been given out past the cache, and one more row is added. There is room for all. -/
theorem spent_ids_never_listed :
    let options : Policy.Options := ⟨true, false, none⟩
    let memory : Memory := ⟨⟨2147483648, []⟩, 1000000000⟩
    let turns : List (Turn Member) := List.replicate 2147483648 (.direct ⟨0, "ada"⟩)
    let w := World.play options turns ⟨.ofMemory memory, .empty⟩
    let r := (Table.cached Member options).call (.getMany []) w
    Memory.create 2147483648 = .ok memory ∧ options.validateCount = true ∧
      r.notes.filterMap Note.errand? = [.fetchMany []] ∧ 1 ≤ w.keeper.count ∧ w.keeper.count ≤ 2147483648 ∧
      ((Table.cached Member options).call (.getMany []) r.state).notes.filterMap Note.errand? =
        [.fetchMany []] := by
  intro options memory turns w r
  have new : Table.creates (⟨0, "ada"⟩ : Member) = true := by decide
  have made : Memory.create 2147483648 = .ok memory := rfl
  exact ⟨made, rfl, fetches_all_spent made rfl rfl new (by decide)⟩

end Lookaside
