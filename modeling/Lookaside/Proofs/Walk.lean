import Lookaside.Demo
import Lookaside.Proofs.Packing
import Mathlib

namespace Lookaside.Demo

open Log (Milestone)

/-! ## Sites -/

def Visible (name : String) : Prop :=
  name.toList.head?.any (fun c => !isBlank c) = true

instance (name : String) : Decidable (Visible name) :=
  inferInstanceAs (Decidable (_ = true))

theorem Visible.append {a : String} (h : Visible a) (b : String) : Visible (a ++ b) := by
  rw [Visible] at h ⊢
  rw [String.toList_append]
  cases text : a.toList with
  | nil => rw [text] at h; cases h
  | cons c cs => rw [text] at h; exact h

theorem Visible.trimBlanks_ne_nil {name : String} (h : Visible name) : trimBlanks name.toList ≠ [] := by
  rw [Visible] at h
  cases text : name.toList with
  | nil => rw [text] at h; cases h
  | cons c cs =>
      have seen : isBlank c = false := by simpa [text] using h
      rw [trimBlanks, dropBlanks, dropBlanks, List.dropWhile_cons_of_neg (by simp [seen])]
      intro none_left
      rw [List.reverse_eq_nil_iff, List.dropWhile_eq_nil_iff] at none_left
      have blank := none_left c (by simp)
      rw [seen] at blank
      cases blank

theorem Visible.validate {d : Domain} (h : Visible d.name) : d.validate = .ok () := by
  rw [Domain.validate, if_neg h.trimBlanks_ne_nil]

theorem visible_siteName (i : Nat) : Visible (siteName i) := by
  rw [siteName]
  split
  · have each : ∀ pair ∈ hosts, Visible pair.1 := by decide
    exact each _ (List.get_mem _ _)
  · split
    · exact .append (by decide) _
    · exact ((Visible.append (by decide) _).append _).append _

theorem creates_site (i : Nat) (stamp : Stamp) : Table.creates (site i stamp) = true := by
  have valid : (site i stamp).validate = .ok () := Visible.validate (visible_siteName i)
  rw [Table.creates, show NumberedEntity.validate (site i stamp) = .ok () from valid]
  rfl

/-! ## Time that passes -/

variable {α β : Type} {c c' c'' : Course}

def Course.ending (c : Course) : Nat :=
  c.world.link.memory.now + c.pauses.sum

theorem Course.sum_pauses (c : Course) : c.pauses.headD 0 + c.pauses.tail.sum = c.pauses.sum := by
  cases pauses : c.pauses with
  | nil => rfl
  | cons pause pauses => exact List.sum_cons.symm

theorem Course.ending_after {w : World (Table Domain)}
    (now : w.link.memory.now = c.next.link.memory.now) : (c.after w).ending = c.ending := by
  rw [ending, ending, ← c.sum_pauses, ← Nat.add_assoc]
  exact congrArg (· + c.pauses.tail.sum) now

theorem Course.sum_tail_le (c : Course) : c.pauses.tail.sum ≤ c.pauses.sum :=
  c.sum_pauses ▸ Nat.le_add_left _ _

theorem Course.next_le_ending (c : Course) : c.next.link.memory.now ≤ c.ending := by
  rw [ending, ← c.sum_pauses]
  exact Nat.add_le_add_left (Nat.le_add_right _ _) _

/-! ## Walks that go through -/

structure Leads (c : Course) (x : Walk α) (a : α) (milestones : List Milestone) (c' : Course) : Prop where
  value : (Step.run (ExceptT.run x) c).value = .ok a
  state : (Step.run (ExceptT.run x) c).state = c'
  milestones : (Step.run (ExceptT.run x) c).notes.filterMap Note.milestone? = milestones

theorem leads_pure (c : Course) (a : α) : Leads c (pure a) a [] c := ⟨rfl, rfl, rfl⟩

theorem Leads.bind {x : Walk α} {f : α → Walk β} {a : α} {b : β} {ms ms' : List Milestone}
    (hx : Leads c x a ms c') (hf : Leads c' (f a) b ms' c'') : Leads c (x >>= f) b (ms ++ ms') c'' := by
  have run : Step.run (ExceptT.run (x >>= f)) c = ⟨(Step.run (ExceptT.run (f a)) c').value,
      (Step.run (ExceptT.run (f a)) c').state,
      (Step.run (ExceptT.run x) c).notes ++ (Step.run (ExceptT.run (f a)) c').notes⟩ := by
    rw [ExceptT.run_bind, Step.run_bind, hx.value, hx.state]
  refine ⟨?_, ?_, ?_⟩ <;> rw [run]
  · exact hf.value
  · exact hf.state
  · rw [List.filterMap_append, hx.milestones, hf.milestones]

theorem leads_report (m : Milestone) (c : Course) : Leads c (Walk.report m) () [m] c := ⟨rfl, rfl, rfl⟩

theorem Leads.after {m : Milestone} {x : Walk β} {b : β} {ms : List Milestone} (h : Leads c x b ms c') :
    Leads c (Walk.report m >>= fun _ => x) b (m :: ms) c' :=
  (leads_report m c).bind h

theorem leads_cachedEntries (c : Course) :
    Leads c Walk.cachedEntries c.world.link.memory.store.count [] c := ⟨rfl, rfl, rfl⟩

theorem leads_attempt {x : Effect (Table Domain) Int32 (Except RepositoryError α)}
    {r : Except RepositoryError α} (steady : Act.Steady x.run)
    (value : (Step.run (ExceptT.run x) c.next).value = .ok r) :
    Leads c (Walk.attempt x) r [] (c.after (Step.run (ExceptT.run x) c.next).state) where
  value := congrArg (Except.mapError Failure.overflow) value
  state := rfl
  milestones := steady.milestones c.next

theorem leads_call {x : Effect (Table Domain) Int32 (Except RepositoryError α)} {a : α}
    (steady : Act.Steady x.run) (value : (Step.run (ExceptT.run x) c.next).value = .ok (.ok a)) :
    Leads c (Walk.call x) a [] (c.after (Step.run (ExceptT.run x) c.next).state) := by
  have run : Step.run (ExceptT.run (Walk.call x)) c =
      ⟨.ok a, c.after (Step.run (ExceptT.run x) c.next).state, (Step.run (ExceptT.run x) c.next).notes⟩ := by
    show Walk.call x c = _
    simp only [Walk.call, value]
  refine ⟨?_, ?_, ?_⟩ <;> rw [run]
  exact steady.milestones c.next

/-! ## Calls on the way -/

/-- A course on which calls of a cached table go through and nothing that they store expires. -/
structure Ready (options : Policy.Options) (capacity : Nat) (t : Table Domain) (c : Course) : Prop where
  keeper : c.world.keeper = t
  agreeing : Agreeing c.world
  fits : c.world.Fits options c.pauses.sum
  lasts : ∀ ttl, options.ttl = some ttl → c.pauses.sum ≤ ttl
  faults : c.world.link.faults = .never
  room : c.world.link.memory.store.capacity = capacity

variable {options : Policy.Options} {capacity spare : Nat} {t t' : Table Domain}

theorem Ready.deadline (ready : Ready options capacity t c) :
    ∃ deadline, c.world.link.memory.deadline options.ttl = .ok deadline :=
  Memory.deadline_ok ready.fits

theorem Ready.ending_le (ready : Ready options capacity t c) {deadline : Option Nat}
    (fits : c.world.link.memory.deadline options.ttl = .ok deadline) : ∀ d, deadline = some d → c.ending ≤ d := by
  intro d given
  cases lifetime : options.ttl with
  | none =>
      rw [lifetime, Memory.deadline, given] at fits
      cases fits
  | some ttl =>
      rw [lifetime] at fits
      cases given.symm.trans (Memory.deadline_some fits)
      exact Nat.add_le_add_left (ready.lasts ttl lifetime) _

theorem Ready.arrive (ready : Ready options capacity t c) : Ready options capacity t (c.after c.next) where
  keeper := ready.keeper
  agreeing := ⟨ready.agreeing.coherent, ready.agreeing.wellFormed, ready.agreeing.writable⟩
  fits := ready.fits.of_le (Nat.le_of_eq (c.ending_after rfl))
  lasts ttl given := Nat.le_trans c.sum_tail_le (ready.lasts ttl given)
  faults := ready.faults
  room := ready.room

theorem Ready.next (ready : Ready options capacity t c) {x : Effect (Table Domain) Int32 α}
    (steady : Act.Steady x.run) {answer : α → Prop} (served : Serves c.next x answer t') :
    Ready options capacity t' (c.after (Step.run (ExceptT.run x) c.next).state) where
  keeper := served.keeper
  agreeing := served.agreeing
  fits := ready.fits.of_le (Nat.le_of_eq (c.ending_after served.now))
  lasts ttl given := Nat.le_trans c.sum_tail_le (ready.lasts ttl given)
  faults := (steady.faults c.next).trans ready.faults
  room := (steady.capacity c.next).trans ready.room

theorem Ready.call (ready : Ready options capacity t c)
    {x : Effect (Table Domain) Int32 (Except RepositoryError α)} (steady : Act.Steady x.run)
    {P : α → Prop} (served : Serves c.next x (fun r => ∃ a, r = .ok a ∧ P a) t') :
    ∃ a, P a ∧ Leads c (Walk.call x) a [] (c.after (Step.run (ExceptT.run x) c.next).state) ∧
      Ready options capacity t' (c.after (Step.run (ExceptT.run x) c.next).state) := by
  obtain ⟨_, value, a, rfl, holds⟩ := served.value
  exact ⟨a, holds, leads_call steady value, ready.next steady served⟩

structure Passes (options : Policy.Options) (capacity : Nat) (c : Course)
    (x : Effect (Table Domain) Int32 (Except RepositoryError α)) (a : α) (t : Table Domain) : Prop where
  leads : Leads c (Walk.call x) a [] (c.after (Step.run (ExceptT.run x) c.next).state)
  ready : Ready options capacity t (c.after (Step.run (ExceptT.run x) c.next).state)
  ending : (c.after (Step.run (ExceptT.run x) c.next).state).ending = c.ending

namespace Ready

variable (ready : Ready options capacity t c)
include ready

theorem passes {x : Effect (Table Domain) Int32 (Except RepositoryError α)} (steady : Act.Steady x.run)
    {a : α} (served : Serves c.next x (· = .ok a) t') : Passes options capacity c x a t' := by
  obtain ⟨_, rfl, leads, ready'⟩ := ready.call steady (served.mono fun _ same => ⟨a, same, rfl⟩)
  exact ⟨leads, ready', c.ending_after served.now⟩

theorem get (filed : t.Filed) (id : Int32) :
    Passes options capacity c ((Table.cached Domain options).get id) (t.get id) t := by
  obtain rfl := ready.keeper
  obtain ⟨deadline, fits⟩ := ready.arrive.deadline
  exact ready.passes (CachedRepository.steady_get _ id) (ready.arrive.agreeing.serves_get filed fits id)

theorem getMany (filed : t.Filed) {ids : List Int32} (some_ids : ids ≠ []) :
    Passes options capacity c ((Table.cached Domain options).getMany ids) (t.getMany ids) t := by
  obtain rfl := ready.keeper
  obtain ⟨deadline, fits⟩ := ready.arrive.deadline
  exact ready.passes (CachedRepository.steady_getMany _ ids)
    (ready.arrive.agreeing.serves_getMany filed fits some_ids)

theorem contains (id : Int32) :
    Passes options capacity c ((Table.cached Domain options).contains id) (t.contains id) t := by
  obtain rfl := ready.keeper
  exact ready.passes (CachedRepository.steady_contains _ id) (ready.arrive.agreeing.serves_contains id)

theorem count : Passes options capacity c (Table.cached Domain options).count t.count t := by
  obtain rfl := ready.keeper
  exact ready.passes (CachedRepository.steady_count _) ready.arrive.agreeing.serves_count

theorem save (filed : t.Filed) {d saved : Domain} (written : t.save d = (.ok saved, t')) :
    Passes options capacity c ((Table.cached Domain options).save d) saved t' := by
  obtain rfl := ready.keeper
  obtain ⟨deadline, fits⟩ := ready.arrive.deadline
  have served := ready.arrive.agreeing.serves_save filed fits d
  rw [show (c.after c.next).world.keeper.save d = _ from written] at served
  exact ready.passes (CachedRepository.steady_save _ d) served

theorem delete {d : Domain} (deleted : t.delete d = (.ok (), t')) :
    Passes options capacity c ((Table.cached Domain options).delete d) () t' := by
  obtain rfl := ready.keeper
  obtain ⟨deadline, fits⟩ := ready.arrive.deadline
  have served := ready.arrive.agreeing.serves_delete fits d
  rw [show (c.after c.next).world.keeper.delete d = _ from deleted] at served
  exact ready.passes (CachedRepository.steady_delete _ d) served

end Ready

/-! ## An empty table -/

theorem passes_none (ready : Ready options capacity .empty c) :
    Passes options capacity c ((Table.cached Domain options).getMany []) [] .empty := by
  have keeper := ready.arrive.keeper
  obtain ⟨deadline, fits⟩ := ready.arrive.deadline
  have served := ready.arrive.agreeing.serves_all (keeper ▸ Table.filed_empty) fits
  rw [keeper] at served
  refine ready.passes (CachedRepository.steady_getMany _ []) (served.mono ?_)
  rintro _ ⟨ds, rfl, selected⟩
  rw [selected.eq_nil Table.all_empty]

theorem leads_readEmpty (ready : Ready options capacity .empty c) :
    ∃ again c', Leads c (readEmpty (Table.cached Domain options)) ()
        [.readEmpty 0, .readEmptyAgain 0 again] c' ∧ Ready options capacity .empty c' := by
  have first := passes_none ready
  have second := passes_none first.ready
  exact ⟨_, _, first.leads.bind (.after (second.leads.bind ((leads_cachedEntries _).bind
    (.after (leads_pure _ _))))), second.ready⟩

/-! ## New rows -/

theorem leads_saveAll {count : Nat} {ds : List Domain} (ready : Ready options capacity t c)
    (packed : Packed Domain capacity count c.ending c.world.link) (positive : 0 < capacity)
    (growing : t.Growing (ds.length + spare)) (new : ∀ d ∈ ds, Table.creates d = true) :
    ∃ c', Leads c (saveAll (Table.cached Domain options) ds) (Table.numbered t.nextId ds) [] c' ∧
      Ready options capacity (t.adding ds) c' ∧
      Packed Domain capacity (count + ds.length) c'.ending c'.world.link := by
  induction ds generalizing c t count with
  | nil => exact ⟨c, leads_pure c _, ready, packed⟩
  | cons d ds ih =>
      rw [List.forall_mem_cons] at new
      rw [List.length_cons, Nat.add_right_comm] at growing
      have written : t.save d = (.ok (NumberedEntity.withId t.nextId d), (t.save d).2) := by
        rw [t.save_new new.1]
      have first := ready.save growing.filed written
      obtain rfl := ready.keeper
      obtain ⟨deadline, fits⟩ := ready.arrive.deadline
      have lasts := ready.arrive.ending_le fits
      rw [c.ending_after rfl] at lasts
      have packed' := (packed.wait _).save positive ready.arrive.agreeing growing fits lasts new.1
      obtain ⟨c', rest, ready', packed''⟩ := ih first.ready (first.ending ▸ packed') (growing.save new.1) new.2
      rw [Table.Growing.nextId_save new.1] at rest
      rw [Nat.add_right_comm] at packed''
      exact ⟨c', first.leads.bind (rest.bind (leads_pure _ _)), ready', packed''⟩

theorem serves_found {count : Nat} (ready : Ready options capacity t c)
    (packed : Packed Domain capacity count c.ending c.world.link) (positive : 0 < capacity) (filed : t.Filed)
    (counted : t.count = count) :
    Serves c.next ((Table.cached Domain options).getMany []) (fun r => ∃ ds, r = .ok ds ∧
      ds.length = if options.validateCount then count else min count capacity) t := by
  obtain rfl := ready.keeper
  obtain ⟨deadline, fits⟩ := ready.arrive.deadline
  have served := ready.arrive.agreeing.serves_all filed fits
  rw [← Table.length_all] at counted
  cases trusts : options.validateCount with
  | true =>
      refine served.mono ?_
      rintro _ ⟨ds, rfl, selected⟩
      rw [Selects, if_pos trusts] at selected
      exact ⟨ds, rfl, selected.length_eq.trans counted⟩
  | false =>
      rcases Nat.eq_zero_or_pos count with rfl | some_rows
      · refine served.mono ?_
        rintro _ ⟨ds, rfl, selected⟩
        rw [selected.eq_nil (List.length_eq_zero_iff.1 counted)]
        exact ⟨[], rfl, (Nat.zero_min capacity).symm⟩
      · exact (packed.wait _).serves_all c.next_le_ending ready.arrive.agreeing
          (Nat.lt_min.2 ⟨some_rows, positive⟩) trusts fits

theorem leads_seed {new : List Domain} (ready : Ready options capacity .empty c)
    (positive : 0 < capacity) (few : new.length < 2147483647)
    (creates : ∀ d ∈ new, Table.creates d = true) :
    ∃ c', Leads c (seed (Table.cached Domain options) new) (Table.numbered 1 new)
        [.seeded new.length (new.countP (·.isWildcard)),
          .readAll (if options.validateCount then new.length else min new.length capacity) new.length] c' ∧
      Ready options capacity (Table.empty.adding new) c' := by
  have growing : (Table.empty : Table Domain).Growing (new.length + 0) := .empty few
  have packed : Packed Domain capacity 0 c.ending c.world.link :=
    ready.agreeing.packed_empty (by rw [ready.keeper]; exact Table.all_empty) ready.faults ready.room
  obtain ⟨_, saved, ready, packed⟩ := leads_saveAll ready packed positive growing creates
  rw [Nat.zero_add] at packed
  have counted := Table.Growing.count_adding_empty few creates
  obtain ⟨found, length, all, ready⟩ := ready.call (CachedRepository.steady_getMany _ [])
    (serves_found ready packed positive (growing.adding creates).filed counted)
  have total := ready.count
  rw [counted] at total
  have wildcards : (Table.numbered 1 new).countP (·.isWildcard) = new.countP (·.isWildcard) :=
    Table.countP_numbered (fun _ _ => rfl) 1 new
  have seeded : Milestone.seeded new.length (new.countP (·.isWildcard)) =
      .seeded (Table.numbered 1 new).length ((Table.numbered 1 new).filter (·.isWildcard)).length := by
    rw [Table.length_numbered, ← List.countP_eq_length_filter, wildcards]
  rw [seeded, ← length]
  exact ⟨_, saved.bind (.after (all.bind (total.leads.bind (.after (leads_pure _ _))))), total.ready⟩

/-! ## Rows that are there -/

theorem leads_readBack {first : Domain} {rest : List Domain} (ready : Ready options capacity t c)
    (filed : t.Filed) (rows : ∀ d ∈ first :: rest, t.get d.id = some d) :
    ∃ c', Leads c (readBack (Table.cached Domain options) first (first :: rest)) ()
        [.readById first.id first.name, .readByIds (first :: rest).length (first :: rest).length] c' ∧
      Ready options capacity t c' := by
  have one := ready.get filed first.id
  rw [rows first List.mem_cons_self] at one
  have some_ids : (first :: rest).map (·.id) ≠ [] := List.cons_ne_nil _ _
  have several := one.ready.getMany filed some_ids
  rw [Table.getMany, if_neg (by simp), Table.filterMap_get rows] at several
  exact ⟨_, one.leads.bind (.after (several.leads.bind (.after (leads_pure _ _)))), several.ready⟩

theorem leads_rename {first : Domain} (ready : Ready options capacity t c) (sound : t.Sound spare)
    (row : t.get first.id = some first) :
    let renamed : Domain := { first with name := "www." ++ first.name }
    ∃ c', Leads c (rename (Table.cached Domain options) first) renamed
        [.renamed first.id ("www." ++ first.name),
          .rejected first.id "Invalid data: domain name must not be empty"] c' ∧
      Ready options capacity (t.put renamed) c' := by
  intro renamed
  have present : t.contains (Entity.id renamed) = true := by
    rw [Table.contains_eq, show Entity.id renamed = first.id from rfl, row]
    rfl
  have identity : Entity.hasIdentity renamed = true :=
    (LawfulNumbered.hasIdentity_iff renamed).2 (sound.positive row)
  have visible : Visible renamed.name := .append (by decide) _
  have saved := ready.save sound.filed (Table.save_present visible.validate identity present)
  -- a name without characters is refused before anything is looked up
  let blank : Domain := { renamed with name := "" }
  have invalid : NumberedEntity.validate blank = .error "domain name must not be empty" := rfl
  obtain ⟨deadline, fits⟩ := saved.ready.arrive.deadline
  have served := saved.ready.arrive.agreeing.serves_save (saved.ready.arrive.keeper ▸ sound.filed.put renamed)
    fits blank
  rw [saved.ready.arrive.keeper, Table.save_invalid _ invalid] at served
  obtain ⟨_, value, rfl⟩ := served.value
  have steady := (Table.cached Domain options).steady_save blank
  exact ⟨_, saved.leads.bind (.after ((leads_attempt steady value).bind (.after (leads_pure _ _)))),
    saved.ready.next steady served⟩

theorem leads_finish {d : Domain} (ready : Ready options capacity t c)
    (present : t.contains d.id = true) :
    ∃ left c', Leads c (finish (Table.cached Domain options) d) ()
        [.deleted d.id false, .finished (t.count - 1) left] c' := by
  have deleted := ready.delete (Table.delete_present (e := d) present)
  have gone := deleted.ready.contains d.id
  have absent : (⟨t.rows.erase d.id, t.nextId⟩ : Table Domain).contains d.id = false := by
    rw [Table.contains_eq, Table.get_erase, if_pos rfl]
    rfl
  have total := gone.ready.count
  have fewer : (⟨t.rows.erase d.id, t.nextId⟩ : Table Domain).count = t.count - 1 :=
    Table.count_erase present
  rw [← absent, ← fewer]
  exact ⟨_, _, deleted.leads.bind (gone.leads.bind (.after (total.leads.bind
    ((leads_cachedEntries _).bind (.after (leads_pure _ _))))))⟩

theorem leads_rows {first : Domain} {rest : List Domain} (ready : Ready options capacity t c)
    (sound : t.Sound spare) (rows : ∀ d ∈ first :: rest, t.get d.id = some d) :
    ∃ left c', Leads c (do
          readBack (Table.cached Domain options) first (first :: rest)
          finish (Table.cached Domain options) (← rename (Table.cached Domain options) first)) ()
        [.readById first.id first.name, .readByIds (first :: rest).length (first :: rest).length,
          .renamed first.id ("www." ++ first.name),
          .rejected first.id "Invalid data: domain name must not be empty", .deleted first.id false,
          .finished (t.count - 1) left] c' := by
  have row := rows first List.mem_cons_self
  let renamed : Domain := { first with name := "www." ++ first.name }
  have present : t.contains (Entity.id renamed) = true := by
    rw [Table.contains_eq, show Entity.id renamed = first.id from rfl, row]
    rfl
  have count : (t.put renamed).count = t.count := by
    rw [Table.count_put, if_pos present]
  obtain ⟨_, back, ready⟩ := leads_readBack ready sound.filed rows
  obtain ⟨_, again, ready⟩ := leads_rename ready sound row
  obtain ⟨left, c', finished⟩ := leads_finish ready (t.contains_put_self renamed)
  rw [count] at finished
  exact ⟨left, c', back.bind (again.bind finished)⟩

/-! ## The whole walk -/

theorem length_sites (count : Nat) (stamps : Nat → Stamp) : (sites count stamps).length = count := by
  rw [sites, List.length_map, List.length_range]

theorem creates_sites {count : Nat} {stamps : Nat → Stamp} :
    ∀ d ∈ sites count stamps, Table.creates d = true := by
  intro d member
  obtain ⟨i, -, rfl⟩ := List.mem_map.1 member
  exact creates_site i (stamps i)

theorem numbered_sites (count : Nat) (stamps : Nat → Stamp) :
    ∃ rest, Table.numbered 1 (sites (count + 1) stamps) =
      NumberedEntity.withId 1 (site 0 (stamps 0)) :: rest := by
  rw [sites, List.range_succ_eq_map]
  exact ⟨_, rfl⟩

theorem leads_newSites {count : Nat} (few : count < 2147483647) (stamps : Nat → Stamp)
    (c : Course) : Leads c (newSites count stamps) (sites count stamps) [] c := by
  have enough : 2147483647 ≤ maxSites := by decide
  rw [newSites, sites?, if_pos (Nat.le_trans (Nat.le_of_lt few) enough)]
  exact leads_pure c _

theorem leads_walk {count : Nat} (ready : Ready options capacity .empty c) (positive : 0 < capacity)
    (few : count < 2147483647) (stamps : Nat → Stamp) :
    ∃ again left c', Leads c (walk (Table.cached Domain options) count stamps) ()
      ([.readEmpty 0, .readEmptyAgain 0 again,
          .seeded count ((sites count stamps).countP (·.isWildcard)),
          .readAll (if options.validateCount then count else min count capacity) count] ++
        if count = 0 then [.nothingSeeded]
        else [.readById 1 (site 0 (stamps 0)).name, .readByIds count count,
          .renamed 1 ("www." ++ (site 0 (stamps 0)).name),
          .rejected 1 "Invalid data: domain name must not be empty", .deleted 1 false,
          .finished (count - 1) left]) c' := by
  have length := length_sites count stamps
  have few' : (sites count stamps).length < 2147483647 := length.symm ▸ few
  have growing : (Table.empty : Table Domain).Growing ((sites count stamps).length + 0) := .empty few'
  have counted := Table.Growing.count_adding_empty few' creates_sites
  have rows := growing.get_numbered creates_sites
  have saved := Table.length_numbered 1 (sites count stamps)
  obtain ⟨again, c₁, empty, ready⟩ := leads_readEmpty ready
  obtain ⟨c₂, seeded, ready⟩ := leads_seed ready positive few' creates_sites
  rw [length] at seeded counted saved
  have new := leads_newSites few stamps c₁
  cases count with
  | zero => exact ⟨again, 0, c₂, empty.bind (new.bind (seeded.bind (.after (leads_pure _ _))))⟩
  | succ count =>
      obtain ⟨rest, numbered⟩ := numbered_sites count stamps
      rw [show Table.empty.nextId = 1 from rfl, numbered] at rows
      rw [numbered] at seeded saved
      obtain ⟨left, c₃, through⟩ := leads_rows ready (growing.adding creates_sites).toSound rows
      rw [saved, counted] at through
      refine ⟨again, left, c₃, ?_⟩
      rw [if_neg (Nat.succ_ne_zero count)]
      exact empty.bind (new.bind (seeded.bind through))

theorem ready_start {settings : Settings} {start slots : Nat} {pauses : List Span} {memory : Memory}
    (made : Memory.create settings.maxEntries start slots = .ok memory)
    (fits : Span.seconds (start + pauses.sum + settings.ttl) ≤ Memory.lastSecond)
    (lasts : pauses.sum ≤ settings.ttl) :
    Ready settings.options settings.maxEntries .empty ⟨⟨.ofMemory memory, .empty⟩, pauses⟩ := by
  have empty := Memory.create_ok made
  subst empty
  refine ⟨rfl, ⟨Table.coherent_nil _ _, Store.wellFormed_nil _, fun _ _ _ => rfl⟩, ?_, ?_, rfl, rfl⟩
  · rintro _ ⟨⟩
    exact fits
  · rintro _ ⟨⟩
    exact lasts

/-- The demonstration goes through, whenever it starts and however long its calls wait, if what it stores lives to
the end. Without count validation it reads as many of the new rows at once as the cache has room for;
everything else that it reads is what it has written. -/
theorem walk_reports {settings : Settings} {circumstances : Circumstances} (positive : 1 ≤ settings.maxEntries)
    (granted : settings.maxEntries * 8 / 7 ≤ circumstances.slots)
    (fits : Span.seconds (circumstances.start + circumstances.pauses.sum + settings.ttl) ≤ Memory.lastSecond)
    (lasts : circumstances.pauses.sum ≤ settings.ttl) {count : Nat} (few : count < 2147483647)
    (stamps : Nat → Stamp) :
    let result := run settings count stamps circumstances
    let name := (site 0 (stamps 0)).name
    let found := if settings.validateCount then count else min count settings.maxEntries
    result.1 = .ok () ∧
      (∃ again left, result.2.filterMap Log.Event.milestone? =
        [.starting settings.ttlSeconds settings.maxEntries settings.validateCount settings.allowZeroCount,
          .readEmpty 0, .readEmptyAgain 0 again,
          .seeded count ((sites count stamps).countP (·.isWildcard)), .readAll found count] ++
        if count = 0 then [.nothingSeeded]
        else [.readById 1 name, .readByIds count count, .renamed 1 ("www." ++ name),
          .rejected 1 "Invalid data: domain name must not be empty", .deleted 1 false,
          .finished (count - 1) left]) ∧
      ∀ id error, (Milestone.rejected id error).line.level = .warn := by
  intro result name found
  have made := Memory.create_granted circumstances.start positive granted
  obtain ⟨again, left, _, leads⟩ := leads_walk (ready_start made fits lasts) positive few stamps
  refine ⟨?_, ⟨again, left, ?_⟩, fun _ _ => rfl⟩
  · dsimp only [result]
    rw [run, made]
    exact leads.value
  · dsimp only [result]
    rw [run, made]
    dsimp only
    rw [List.filterMap_cons_some (show Log.Event.milestone? (.milestone _) = some _ from rfl),
      List.filterMap_filterMap]
    exact congrArg (_ :: ·) leads.milestones

theorem three_sites_reported :
    let settings : Settings := ⟨300, 2, false, true⟩
    let circumstances : Circumstances := ⟨8, 86400000000007, [0, 5, 0, 0, 299999999990, 0, 0, 0, 0, 5]⟩
    let stamps : Nat → Stamp := fun i => ⟨⟨BitVec.ofNat 128 i⟩, ⟨⟨2024, 2, 29, by decide⟩, 12, 0, 0, 0, by decide⟩⟩
    let result := run settings 3 stamps circumstances
    1 ≤ settings.maxEntries ∧ settings.maxEntries * 8 / 7 ≤ circumstances.slots ∧
      Span.seconds (circumstances.start + circumstances.pauses.sum + settings.ttl) ≤ Memory.lastSecond ∧
      circumstances.pauses.sum ≤ settings.ttl ∧ 3 < 2147483647 ∧ result.1 = .ok () ∧
      (∃ again left, result.2.filterMap Log.Event.milestone? =
        [.starting 300 2 false true, .readEmpty 0, .readEmptyAgain 0 again, .seeded 3 0, .readAll 2 3,
          .readById 1 "example.com", .readByIds 3 3, .renamed 1 "www.example.com",
          .rejected 1 "Invalid data: domain name must not be empty", .deleted 1 false,
          .finished 2 left]) ∧
      ∀ id error, (Milestone.rejected id error).line.level = .warn := by
  intro settings circumstances stamps result
  have positive : 1 ≤ settings.maxEntries := by decide
  have granted : settings.maxEntries * 8 / 7 ≤ circumstances.slots := by decide
  have fits : Span.seconds (circumstances.start + circumstances.pauses.sum + settings.ttl) ≤ Memory.lastSecond := by
    decide
  have lasts : circumstances.pauses.sum ≤ settings.ttl := by decide
  have few : 3 < 2147483647 := by decide
  have wildcards : (sites 3 stamps).countP (·.isWildcard) = 0 := by decide
  obtain ⟨through, milestones, warns⟩ := walk_reports positive granted fits lasts few stamps
  rw [wildcards] at milestones
  exact ⟨positive, granted, fits, lasts, few, through, milestones, warns⟩

end Lookaside.Demo
