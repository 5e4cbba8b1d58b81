import Lookaside.Proofs.Accounting
import Lookaside.Proofs.Session
import Mathlib.Data.List.Perm.Subperm

namespace Lookaside

variable {ρ E I : Type}

theorem CachedRepository.run_settle {α : Type} [Entity E I] {operation : Act ρ I (Deferred E α)}
    {w : World ρ}
    (done : (Step.run (ExceptT.run ((operation.run w).value.outbox.discharge : Effect ρ I Unit))
      (operation.run w).state).value = .ok ()) :
    (Step.run (ExceptT.run (settle operation)) w).value =
        .ok ((operation.run w).value.result.mapError PolicyError.toRepository) ∧
      (Step.run (ExceptT.run (settle operation)) w).state =
        (Step.run (ExceptT.run ((operation.run w).value.outbox.discharge : Effect ρ I Unit))
          (operation.run w).state).state := by
  rw [settle, ExceptT.run_bind, Step.run_bind, Effect.run_lift]
  dsimp only
  rw [ExceptT.run_bind, Deferred.commit, ExceptT.run_bind, Step.run_bind, Step.run_bind, done]
  exact ⟨rfl, rfl⟩

/-- What may be answered to a request for all rows. -/
def Selects (options : Policy.Options) (rows es : List E) : Prop :=
  if options.validateCount then es.Perm rows
  else es.Nodup ∧ (∀ e ∈ es, e ∈ rows) ∧ (es = [] → rows = [])

theorem selects_rows {options : Policy.Options} {rows : List E} (distinct : rows.Nodup) :
    Selects options rows rows := by
  rw [Selects]
  split
  · exact .refl _
  · exact ⟨distinct, fun _ member => member, fun empty => empty⟩

theorem Selects.eq_nil {options : Policy.Options} {rows es : List E} (h : Selects options rows es)
    (no_rows : rows = []) : es = [] := by
  subst no_rows
  rw [Selects] at h
  split at h
  · exact List.perm_nil.1 h
  · exact List.eq_nil_iff_forall_not_mem.2 fun e member => List.not_mem_nil (h.2.1 e member)

/-! ## Agreement -/

variable [NumberedEntity E]

structure Agreeing (w : World (Table E)) : Prop where
  coherent : w.keeper.Coherent w.link.memory.store
  wellFormed : w.link.memory.store.WellFormed
  writable : w.link.faults.SpareWrites

structure Serves {α : Type} (w : World (Table E)) (x : Effect (Table E) Int32 α) (answer : α → Prop)
    (t : Table E) : Prop where
  value : ∃ a, (Step.run (ExceptT.run x) w).value = .ok a ∧ answer a
  keeper : (Step.run (ExceptT.run x) w).state.keeper = t
  now : (Step.run (ExceptT.run x) w).state.link.memory.now = w.link.memory.now
  agreeing : Agreeing (Step.run (ExceptT.run x) w).state

theorem Serves.mono {α : Type} {w : World (Table E)} {x : Effect (Table E) Int32 α}
    {answer answer' : α → Prop} {t : Table E} (h : Serves w x answer t)
    (le : ∀ a, answer a → answer' a) : Serves w x answer' t := by
  obtain ⟨a, value, answered⟩ := h.value
  exact ⟨⟨a, value, le a answered⟩, h.keeper, h.now, h.agreeing⟩

theorem Serves.map {α β : Type} {w : World (Table E)} {x : Effect (Table E) Int32 α}
    {answer : α → Prop} {t : Table E} (h : Serves w x answer t) {f : α → β} {answer' : β → Prop}
    (hf : ∀ a, answer a → answer' (f a)) : Serves w (do return f (← x)) answer' t := by
  obtain ⟨a, value, answered⟩ := h.value
  have run : Step.run (ExceptT.run (do return f (← x))) w =
      ⟨.ok (f a), (Step.run (ExceptT.run x) w).state, (Step.run (ExceptT.run x) w).notes ++ []⟩ := by
    rw [ExceptT.run_bind, Step.run_bind, value]
    rfl
  refine ⟨⟨f a, ?_, hf a answered⟩, ?_, ?_, ?_⟩
  · rw [run]
  · rw [run]; exact h.keeper
  · rw [run]; exact h.now
  · rw [run]; exact h.agreeing

theorem Serves.report {α : Type} {w : World (Table E)}
    {x : Effect (Table E) Int32 (Except RepositoryError α)} {answer : Except RepositoryError α → Prop}
    {t : Table E} (h : Serves w x answer t)
    {k : Except RepositoryError α → Effect (Table E) Int32 (Except RepositoryError α)}
    (failed : ∀ error, k (.error error) = return .error error)
    (done : ∀ a, ∃ event, k (.ok a) = do
      Effect.lift (Act.report event)
      return .ok a) : Serves w (x >>= k) answer t := by
  obtain ⟨a, value, answered⟩ := h.value
  have run : ∃ notes, Step.run (ExceptT.run (x >>= k)) w =
      ⟨.ok a, (Step.run (ExceptT.run x) w).state, notes⟩ := by
    rw [ExceptT.run_bind, Step.run_bind, value]
    cases a with
    | error error =>
        dsimp only
        rw [failed]
        exact ⟨_, rfl⟩
    | ok a =>
        obtain ⟨event, reported⟩ := done a
        dsimp only
        rw [reported]
        exact ⟨_, rfl⟩
  obtain ⟨notes, run⟩ := run
  refine ⟨⟨a, ?_, answered⟩, ?_, ?_, ?_⟩ <;> rw [run]
  · exact h.keeper
  · exact h.now
  · exact h.agreeing

namespace Agreeing

variable {w : World (Table E)}

theorem reads (h : Agreeing w) {w' : World (Table E)} (keeper : w'.keeper = w.keeper)
    (reads : w.link.Reads w'.link) : Agreeing w' where
  coherent := keeper ▸ h.coherent.touched reads.touched
  wellFormed := reads.touched.wellFormed h.wellFormed
  writable := reads.faults ▸ h.writable

open CachedRepository

variable [LawfulNumbered E]

omit [LawfulNumbered E] in
theorem run_settle {α : Type} (h : Agreeing w) {operation : Act (Table E) Int32 (Deferred E α)}
    (spares : Act.Spares operation) {ttl : Option Span} {deadline : Option Nat}
    (fits : w.link.memory.deadline ttl = .ok deadline)
    (lifetime : ∀ batch, (operation.run w).value.outbox.batch? = some batch → batch.ttl = ttl) :
    (Step.run (ExceptT.run (settle operation)) w).value =
        .ok ((operation.run w).value.result.mapError PolicyError.toRepository) ∧
      (operation.run w).state.Stored
        ((operation.run w).value.outbox.changes.foldl (Change.make deadline)
          (operation.run w).state.link.memory.store)
        (Step.run (ExceptT.run (settle operation)) w).state := by
  have reads := spares.link w
  have fits' := (Memory.deadline_congr reads.now ttl).trans fits
  obtain ⟨value, stored⟩ := Outbox.discharge_done (I := Int32) (reads.faults ▸ h.writable) fits' lifetime
  obtain ⟨settled, state⟩ := CachedRepository.run_settle value
  exact ⟨settled, state ▸ stored⟩

theorem serves_settle {α : Type} (h : Agreeing w) {operation : Act (Table E) Int32 (Deferred E α)}
    (spares : Act.Spares operation) {ttl : Option Span} {deadline : Option Nat}
    (fits : w.link.memory.deadline ttl = .ok deadline)
    (lifetime : ∀ batch, (operation.run w).value.outbox.batch? = some batch → batch.ttl = ttl)
    {t : Table E} (accounted : Accounted w (operation.run w) t) :
    Serves w (settle operation) (· = (operation.run w).value.result.mapError PolicyError.toRepository) t := by
  have reads := spares.link w
  obtain ⟨value, stored⟩ := h.run_settle spares fits lifetime
  have memory := stored.memory
  have keeper := stored.keeper.trans accounted.keeper
  refine ⟨⟨_, value, rfl⟩, keeper, ?_, ?_, ?_, ?_⟩
  · rw [memory, reads.now]
  · rw [keeper, memory]
    exact accounted.accounts.coherent_foldl (h.coherent.touched reads.touched) deadline
  · rw [memory]
    exact (reads.touched.wellFormed h.wellFormed).foldl_make _
  · rw [stored.faults, reads.faults]
    exact h.writable

end Agreeing

def Table.cached (E : Type) [NumberedEntity E] (options : Policy.Options) :
    CachedRepository (Table E) E Int32 :=
  ⟨Table.repository, options⟩

/-- Nothing is found in the cache but a marker, and it may be trusted. -/
def World.ShowsNone (options : Policy.Options) (w : World (Table E)) : Prop :=
  (Table.cached E options).policy.found w.link = [] ∧ options.allowZeroCount = true ∧
    ∃ bytes, w.link.memory.store.lookup? w.link.memory.now (Key.family E) = some bytes ∧
      Marker.isMarker bytes = true

theorem marks_bytes : Marker.isMarker Marker.bytes = true := by cbv

theorem Agreeing.no_rows {w : World (Table E)} {options : Policy.Options} (h : Agreeing w)
    (shown : w.ShowsNone options) : w.keeper.all = [] := by
  obtain ⟨-, -, bytes, marked, -⟩ := shown
  exact h.coherent.marker marked

namespace Agreeing

open CachedRepository

variable [LawfulNumbered E] {w : World (Table E)} {options : Policy.Options} {deadline : Option Nat}

theorem serves_get (h : Agreeing w) (filed : w.keeper.Filed)
    (fits : w.link.memory.deadline options.ttl = .ok deadline) (id : Int32) :
    Serves w ((Table.cached E options).get id) (· = .ok (w.keeper.get id)) w.keeper := by
  let p := (Table.cached E options).policy
  have served := h.serves_settle (p.spares_get id Table.repository.get) fits
    (Operation.answers_defer p (.get id Table.repository.get) w).lifetime (accounted_get p filed id)
  rw [result_get_of_fresh h.coherent.fresh] at served
  exact served

omit [LawfulNumbered E] in
theorem serves_lift {α : Type} (h : Agreeing w) {x : Act (Table E) Int32 α} (spares : Act.Spares x)
    (keeper : (x.run w).state.keeper = w.keeper) :
    Serves w (Effect.lift x) (· = (x.run w).value) w.keeper := by
  have run := Effect.run_lift x w
  have reads := spares.link w
  refine ⟨⟨_, ?_, rfl⟩, ?_, ?_, ?_⟩
  · rw [run]
  · rw [run]; exact keeper
  · rw [run]; exact reads.now
  · rw [run]; exact h.reads keeper reads

theorem serves_contains (h : Agreeing w) (id : Int32) :
    Serves w ((Table.cached E options).contains id) (· = .ok (w.keeper.contains id)) w.keeper := by
  have served := h.serves_lift
    ((Policy.spares_contains id Table.repository.contains).bind fun answer =>
      Act.spares_pure (answer.mapError PolicyError.toRepository)) (keeper_contains id)
  rw [Step.run_bind, value_contains_of_fresh h.coherent.fresh] at served
  exact served

omit [LawfulNumbered E] in
theorem serves_count (h : Agreeing w) :
    Serves w (Table.cached E options).count (· = .ok w.keeper.count) w.keeper :=
  h.serves_lift ⟨fun _ => .refl _, fun _ => rfl⟩ rfl

theorem serves_save (h : Agreeing w) (filed : w.keeper.Filed)
    (fits : w.link.memory.deadline options.ttl = .ok deadline) (e : E) :
    Serves w ((Table.cached E options).save e) (· = (w.keeper.save e).1) (w.keeper.save e).2 := by
  let p := (Table.cached E options).policy
  have served := h.serves_settle (p.spares_save e (Table.repository.save e)) fits
    (Operation.answers_defer p (.save e (Table.repository.save e)) w).lifetime (accounted_save p filed e)
  rw [Policy.result_save, PolicyError.mapError_repository] at served
  exact served.report (fun _ => rfl) fun _ => ⟨_, rfl⟩

theorem serves_delete (h : Agreeing w)
    (fits : w.link.memory.deadline options.ttl = .ok deadline) (e : E) :
    Serves w ((Table.cached E options).delete e) (· = (w.keeper.delete e).1)
      (w.keeper.delete e).2 := by
  let p := (Table.cached E options).policy
  obtain ⟨key, keyed⟩ := Key.item_ok (E := E) (Entity.id e)
  have served := h.serves_settle (p.spares_remove e (Table.repository.delete e)) fits
    (Operation.answers_defer p (.remove e (Table.repository.delete e)) w).lifetime (accounted_remove p e)
  rw [Policy.result_remove keyed, PolicyError.mapError_repository] at served
  exact served.report (fun _ => rfl) fun _ => ⟨_, rfl⟩

/-! ## Requests for several rows -/

omit [LawfulNumbered E] in
theorem validator_cached :
    (Table.cached E options).policy.validator (I := Int32) =
      .ok (if options.validateCount then some Table.repository.count else none) := by
  rw [Policy.validator]
  split
  · next validates => rw [if_pos (show options.validateCount = true from validates)]; rfl
  · next validates => rw [if_neg (show ¬ options.validateCount = true from validates)]

omit [LawfulNumbered E] in
theorem count_of_agrees {counter? : Option (Call (Table E) Nat)}
    (valid : (Table.cached E options).policy.validator (I := Int32) = .ok counter?)
    (validates : options.validateCount = true) {t : Table E} {es : List E}
    (agreed : Policy.agrees counter? t es) : t.count = es.length := by
  rw [validator_cached, if_pos validates] at valid
  cases valid
  exact Except.ok.inj (agreed _ rfl)

omit [LawfulNumbered E] in
theorem counter_still {counter : Call (Table E) Nat}
    (given : (Table.cached E options).policy.counter? = some counter) (t : Table E) : (counter t).2 = t := by
  cases given
  rfl

theorem serves_many (h : Agreeing w) (filed : w.keeper.Filed)
    (fits : w.link.memory.deadline options.ttl = .ok deadline) (ids : List Int32) :
    Serves w ((Table.cached E options).getMany ids)
      (· = (((Table.cached E options).policy.getMany ids
        fun ids => present (Table.repository.getMany ids)).run w).value.result.mapError
          PolicyError.toRepository) w.keeper := by
  let p := (Table.cached E options).policy
  let fetch : List Int32 → Call (Table E) (List (Option E)) :=
    fun ids => present (Table.repository.getMany ids)
  exact h.serves_settle (p.spares_getMany ids fetch) fits
    (Operation.answers_defer p (.getMany ids fetch) w).lifetime
    (accounted_getMany (fun _ => counter_still) filed ids)

theorem serves_hit (h : Agreeing w) (fits : w.link.memory.deadline options.ttl = .ok deadline)
    (ids : List Int32) {es : List E}
    (hit : (((Table.cached E options).policy.readCached ids).run w).value = .ok (some es)) :
    Serves w ((Table.cached E options).getMany ids) (· = .ok es) w.keeper := by
  let p := (Table.cached E options).policy
  let fetch : List Int32 → Call (Table E) (List (Option E)) :=
    fun ids => present (Table.repository.getMany ids)
  have run := Policy.getMany_of_hit hit fetch
  have served := h.serves_settle (p.spares_getMany ids fetch) fits
    (Operation.answers_defer p (.getMany ids fetch) w).lifetime (t := w.keeper)
    ⟨by rw [run]; exact Policy.keeper_readCached (fun _ => counter_still) ids w,
      by rw [run]; exact Table.accounts_nil _⟩
  rw [run] at served
  exact served

theorem serves_getMany (h : Agreeing w) (filed : w.keeper.Filed)
    (fits : w.link.memory.deadline options.ttl = .ok deadline) {ids : List Int32} (some_ids : ids ≠ []) :
    Serves w ((Table.cached E options).getMany ids) (· = .ok (w.keeper.getMany ids)) w.keeper := by
  have served := h.serves_many filed fits ids
  rw [result_getMany_of_fresh h.coherent.fresh (fun _ => counter_still) h.wellFormed some_ids] at served
  exact served

/-! ## Requests for all rows -/

theorem found_rows (options : Policy.Options) (fresh : w.keeper.Fresh w.link.memory.store)
    (wf : w.link.memory.store.WellFormed) (filed : w.keeper.Filed) :
    ((Table.cached E options).policy.found w.link).Nodup ∧
      ∀ e ∈ (Table.cached E options).policy.found w.link, ∃ id, 0 < id ∧ w.keeper.get id = some e := by
  have backed : ∀ x ∈ w.link.values (Key.family E), x.1 ≠ Key.family E → w.keeper.Backs x.1 x.2 := by
    intro x member
    obtain ⟨e, stored, -, -, rfl⟩ := Store.mem_scan.1 (Cache.Link.mem_values member)
    exact fresh e stored
  exact ⟨Table.nodup_listed filed backed (Cache.Link.values_distinct wf _),
    fun e member => Table.row_of_listed backed member⟩

/-- What the cache answers to a request for all rows is sound if its items are and if its marker, where nothing
else is found, is right. -/
theorem selects_of_hit (fresh : w.keeper.Fresh w.link.memory.store) (wf : w.link.memory.store.WellFormed)
    (filed : w.keeper.Filed) (honest : w.ShowsNone options → w.keeper.all = []) {es : List E}
    (hit : (((Table.cached E options).policy.readCached []).run w).value = .ok (some es)) :
    Selects options w.keeper.all es := by
  obtain ⟨counter?, valid, found, answer⟩ := Policy.readAll_hit hit
  obtain ⟨nodup, rows⟩ := found_rows options fresh wf filed
  rw [found] at nodup rows
  have among : ∀ e ∈ es, e ∈ w.keeper.all := fun e member =>
    Table.mem_all.2 ((rows e member).imp fun _ row => row.2)
  have none_left : es = [] → w.keeper.all = [] := by
    intro empty
    rcases answer with ⟨some_found, -⟩ | ⟨-, allowed, marked, -⟩
    · exact absurd empty some_found
    · exact honest ⟨found.trans empty, allowed, marked⟩
  rw [Selects]
  split
  · next validates =>
      rcases answer with ⟨-, agreed, -⟩ | ⟨empty, -⟩
      · -- as many distinct rows as there are rows are all of them
        exact (List.subperm_of_subset nodup among).perm_of_length_le
          (Nat.le_of_eq ((Table.length_all _).trans (count_of_agrees valid validates agreed)))
      · rw [empty, none_left empty]
  · exact ⟨nodup, among, none_left⟩

omit [LawfulNumbered E] in
theorem readCached_all (options : Policy.Options) (w : World (Table E)) : ∃ found,
    (((Table.cached E options).policy.readCached []).run w).value = .ok found := by
  cases value : (((Table.cached E options).policy.readCached []).run w).value with
  | ok found => exact ⟨found, rfl⟩
  | error error =>
      refine absurd value (Policy.readAll_ne_error ?_ ?_ w error)
      · intro error refused
        cases validator_cached.symm.trans refused
      · rintro _ ⟨⟩ t
        exact ⟨_, rfl⟩

omit [LawfulNumbered E] in
theorem hit_of_shown (never : w.link.faults = .never) (shown : w.ShowsNone options) :
    (((Table.cached E options).policy.readCached []).run w).value = .ok (some []) := by
  obtain ⟨none_found, allowed, bytes, marked, marks⟩ := shown
  exact Policy.readAll_of_marker validator_cached none_found allowed never marked marks

theorem result_all (options : Policy.Options) (fresh : w.keeper.Fresh w.link.memory.store)
    (wf : w.link.memory.store.WellFormed) (filed : w.keeper.Filed)
    (honest : w.ShowsNone options → w.keeper.all = []) :
    ∃ es, (((Table.cached E options).policy.getMany []
        fun ids => present (Table.repository.getMany ids)).run w).value.result = .ok es ∧
      Selects options w.keeper.all es := by
  obtain ⟨found, read⟩ := readCached_all options w
  cases found with
  | some es =>
      refine ⟨es, ?_, selects_of_hit fresh wf filed honest read⟩
      rw [Policy.getMany_of_hit read]
      rfl
  | none =>
      refine ⟨w.keeper.all, ?_, selects_rows filed.nodup_all⟩
      rw [value_getMany_of_miss (fun _ => counter_still) read]
      rfl

theorem serves_all (h : Agreeing w) (filed : w.keeper.Filed)
    (fits : w.link.memory.deadline options.ttl = .ok deadline) :
    Serves w ((Table.cached E options).getMany [])
      (fun a => ∃ es, a = .ok es ∧ Selects options w.keeper.all es) w.keeper := by
  obtain ⟨es, result, selected⟩ := result_all options h.coherent.fresh h.wellFormed filed h.no_rows
  refine (h.serves_many filed fits []).mono ?_
  rintro _ rfl
  rw [result]
  exact ⟨es, rfl, selected⟩

end Agreeing

end Lookaside
