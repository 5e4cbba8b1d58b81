import Lookaside.Proofs.Calls
import Lookaside.Proofs.Growth
import Mathlib

namespace Lookaside

/-! ## Computations that may end early -/

section

variable {ε σ ν α β : Type} {late late' : Prop} {error : ε} {x : ExceptT ε (Step σ ν) α} {s : σ}
  {P P' : α → σ → Prop}

/-- A computation that gives a value, unless it is late: then it may end with an error. -/
def Reaches (late : Prop) (error : ε) (x : ExceptT ε (Step σ ν) α) (s : σ) (P : α → σ → Prop) : Prop :=
  late ∧ (Step.run (ExceptT.run x) s).value = .error error ∨
    ∃ a, (Step.run (ExceptT.run x) s).value = .ok a ∧ P a (Step.run (ExceptT.run x) s).state

namespace Reaches

theorem mono (h : Reaches late error x s P) (sooner : late → late') (le : ∀ a s, P a s → P' a s) :
    Reaches late' error x s P' :=
  h.imp (And.imp_left sooner) fun ⟨a, value, holds⟩ => ⟨a, value, le _ _ holds⟩

theorem bind {f : α → ExceptT ε (Step σ ν) β} {Q : β → σ → Prop} (h : Reaches late error x s P)
    (hf : ∀ a s, P a s → Reaches late error (f a) s Q) : Reaches late error (x >>= f) s Q := by
  rw [Reaches, ExceptT.run_bind, Step.run_bind]
  rcases h with ⟨late, value⟩ | ⟨a, value, holds⟩
  · rw [value]
    exact .inl ⟨late, rfl⟩
  · rw [value]
    exact hf a _ holds

theorem value_eq [Decidable late'] {x : ExceptT ε (Step σ ν) Unit}
    (h : Reaches late error x s fun _ _ => ¬ late) (same : late' ↔ late) :
    (Step.run (ExceptT.run x) s).value = if late' then .error error else .ok () := by
  rcases h with ⟨is_late, value⟩ | ⟨_, value, in_time⟩
  · rw [value, if_pos (same.2 is_late)]
  · rw [value, if_neg (mt same.1 in_time)]

end Reaches

end

/-! ## Discharges -/

variable {ρ E I α β : Type} {ttl : Option Span}

def Memory.Late (ttl : Option Span) (m : Memory) : Prop := m.deadline ttl = .error .deadline

def Overdue (ttl : Span) (now : Nat) : Prop := Memory.lastSecond < Span.seconds (now + ttl)

instance (ttl : Span) (now : Nat) : Decidable (Overdue ttl now) :=
  inferInstanceAs (Decidable (_ < _))

theorem Overdue.mono {ttl : Span} {now later : Nat} (h : Overdue ttl now) (le : now ≤ later) : Overdue ttl later :=
  Nat.lt_of_lt_of_le h (Nat.div_le_div_right (Nat.add_le_add_right le ttl))

theorem Memory.late_some {m : Memory} {ttl : Span} : m.Late (some ttl) ↔ Overdue ttl m.now := by
  rw [Late, deadline]
  split
  · next late => exact iff_of_true rfl late
  · next early =>
      refine iff_of_false (fun late => ?_) early
      cases late

theorem Memory.deadline_of_not_late {m : Memory} (h : ¬ m.Late ttl) : ∃ deadline, m.deadline ttl = .ok deadline := by
  cases fits : m.deadline ttl with
  | ok deadline => exact ⟨deadline, rfl⟩
  | error overflow => exact absurd fits h

theorem Effect.bind_overflows {x : Effect ρ I α} {w : World ρ} {overflow : Overflow}
    (h : (Step.run (ExceptT.run x) w).value = .error overflow) (f : α → Effect ρ I β) :
    (Step.run (ExceptT.run (x >>= f)) w).value = .error overflow := by
  rw [ExceptT.run_bind, Step.run_bind, h]
  rfl

variable [Entity E I] {w : World ρ}

theorem Batch.applyAll_clears {changes : List (Change E)} (clears : ∀ change ∈ changes, change.fills? = none)
    (w : World ρ) :
    ∃ w' notes, Step.run (ExceptT.run (applyAll ttl changes : Effect ρ I Unit)) w = ⟨.ok (), w', notes⟩ := by
  induction changes generalizing w with
  | nil => exact ⟨w, [], rfl⟩
  | cons change changes ih =>
      rw [List.forall_mem_cons] at clears
      have asks (key : String) (value : Bytes) : change.request? ttl ≠ some (.set key value ttl) := by
        cases change with
        | clear key => exact nofun
        | _ => cases clears.1
      obtain ⟨w', notes, run, -⟩ : ∃ w' notes,
          Step.run (ExceptT.run (change.apply ttl : Effect ρ I Unit)) w = ⟨.ok (), w', notes⟩ ∧
            change.Applied ttl none w w' notes :=
        change.applied_of_replies fun key value asked => absurd asked (asks key value)
      obtain ⟨w'', notes', rest⟩ := ih clears.2 w'
      refine ⟨w'', notes ++ notes', ?_⟩
      rw [applyAll, ExceptT.run_bind, Step.run_bind, run]
      dsimp only
      rw [rest]

theorem Outbox.discharge_clears {outbox : Outbox E} (clears : ∀ change ∈ outbox.changes, change.fills? = none)
    (w : World ρ) : (Step.run (ExceptT.run (outbox.discharge : Effect ρ I Unit)) w).value = .ok () := by
  obtain ⟨batch?⟩ := outbox
  cases batch? with
  | none => rfl
  | some batch =>
      obtain ⟨w', notes, run⟩ : ∃ w' notes, Step.run (ExceptT.run
          (Batch.applyAll batch.ttl batch.changes : Effect ρ I Unit)) w = ⟨.ok (), w', notes⟩ :=
        Batch.applyAll_clears clears w
      rw [discharge, ExceptT.run_bind, Step.run_bind, Effect.run_lift, Act.run_report]
      dsimp only
      rw [Batch.apply, run]

section

variable (never : w.link.faults = .never) (late : w.link.memory.Late ttl)
include never late

omit [Entity E I] in
theorem Act.set_overflows (key : String) (value : Bytes) :
    (Step.run (ExceptT.run (Act.set key value ttl : Effect ρ I _)) w).value = .error .deadline := by
  have works : w.link.fault? (.set key value ttl) = none := by
    rw [Cache.Link.fault?, never]
    rfl
  have overflows : w.link.memory.set key value ttl = .error .deadline := by
    rw [Memory.set, show w.link.memory.deadline ttl = _ from late]
    rfl
  rw [Act.run_set, Cache.Link.set, works]
  dsimp only
  rw [overflows]

theorem Change.apply_overflows {change : Change E} {key : String} {value : Bytes}
    (asks : change.request? ttl = some (.set key value ttl)) :
    (Step.run (ExceptT.run (change.apply ttl : Effect ρ I Unit)) w).value = .error .deadline := by
  cases change with
  | store key' e =>
      rw [request?] at asks
      rw [apply]
      cases encoded : Entity.encode e with
      | error reason =>
          rw [encoded] at asks
          cases asks
      | ok bytes => exact Effect.bind_overflows (Act.set_overflows never late key' bytes) _
  | mark key' => exact Effect.bind_overflows (Act.set_overflows never late key' Marker.bytes) _
  | clear key' => cases asks

theorem Outbox.discharge_overflows {change : Change E} {key : String} {value : Bytes}
    (asks : change.request? ttl = some (.set key value ttl)) (changes : List (Change E)) :
    (Step.run (ExceptT.run ((holding ⟨change :: changes, ttl⟩).discharge : Effect ρ I Unit)) w).value =
      .error .deadline := by
  have first : (Step.run (ExceptT.run (Batch.applyAll ttl (change :: changes) : Effect ρ I Unit)) w).value =
      .error .deadline :=
    Effect.bind_overflows (change.apply_overflows never late asks) _
  exact first

end

namespace CachedRepository

theorem settle_overflows {operation : Act ρ I (Deferred E α)} {overflow : Overflow}
    (h : (Step.run (ExceptT.run ((operation.run w).value.outbox.discharge : Effect ρ I Unit))
      (operation.run w).state).value = .error overflow) :
    (Step.run (ExceptT.run (settle operation)) w).value = .error overflow := by
  rw [settle, ExceptT.run_bind, Step.run_bind, Effect.run_lift]
  exact Effect.bind_overflows (Effect.bind_overflows h _) _

theorem settle_nothing {operation : Act ρ I (Deferred E α)} {result : Except PolicyError α}
    (value : (operation.run w).value.result = result) (nothing : (operation.run w).value.outbox.changes = []) :
    (Step.run (ExceptT.run (settle operation)) w).value = .ok (result.mapError PolicyError.toRepository) ∧
      (Step.run (ExceptT.run (settle operation)) w).state = (operation.run w).state := by
  obtain ⟨notes, done⟩ : ∃ notes, Step.run (ExceptT.run
      ((operation.run w).value.outbox.discharge : Effect ρ I Unit)) (operation.run w).state =
        ⟨.ok (), (operation.run w).state, notes⟩ := by
    generalize (operation.run w).value.outbox = outbox at nothing
    match outbox with
    | ⟨none⟩ => exact ⟨_, rfl⟩
    | ⟨some ⟨changes, ttl⟩⟩ =>
        cases (show changes = [] from nothing)
        exact ⟨_, rfl⟩
  rw [outcome_settle done, value]
  exact ⟨rfl, rfl⟩

theorem reaches_settle {operation : Act ρ I (Deferred E α)} (spares : Act.Spares operation)
    (writable : w.link.faults.SpareWrites)
    (lifetime : ∀ batch, (operation.run w).value.outbox.batch? = some batch → batch.ttl = ttl) :
    Reaches (w.link.memory.Late ttl ∧
        ∃ change ∈ (operation.run w).value.outbox.changes, change.fills?.isSome = true)
      .deadline (settle operation) w fun answer w' =>
        answer = (operation.run w).value.result.mapError PolicyError.toRepository ∧
          w'.keeper = (operation.run w).state.keeper := by
  have reads := spares.link w
  have writable' := reads.faults ▸ writable
  rcases done : Step.run (ExceptT.run ((operation.run w).value.outbox.discharge : Effect ρ I Unit))
    (operation.run w).state with ⟨value, w', notes⟩
  cases value with
  | ok _ =>
      obtain ⟨notes', applied⟩ := Outbox.applied_of_done lifetime done
      obtain ⟨value, state⟩ := run_settle (congrArg Outcome.value done)
      refine .inr ⟨_, value, rfl, ?_⟩
      rw [state, done]
      exact (applied.stored writable').keeper
  | error overflow =>
      refine .inl ⟨⟨?_, ?_⟩, settle_overflows (by rw [done])⟩
      · by_contra early
        obtain ⟨deadline, fits⟩ := Memory.deadline_of_not_late early
        have through := (Outbox.discharge_done (I := I) writable'
          ((Memory.deadline_congr reads.now ttl).trans fits) lifetime).1
        rw [done] at through
        cases through
      · by_contra none_fills
        have clears : ∀ change ∈ (operation.run w).value.outbox.changes, change.fills? = none :=
          fun change member => Option.not_isSome_iff_eq_none.1 fun fills => none_fills ⟨change, member, fills⟩
        have through := Outbox.discharge_clears (I := I) clears (operation.run w).state
        rw [done] at through
        cases through

end CachedRepository

/-! ## Calls of a cached table -/

section

variable {E : Type} [NumberedEntity E] {w : World (Table E)} {options : Policy.Options} {t : Table E}

def Yields (late : Prop) (w : World (Table E)) (x : Effect (Table E) Int32 (Except RepositoryError α))
    (P : α → Prop) (t : Table E) : Prop :=
  Reaches late .deadline x w fun answer w' => ∃ a, answer = .ok a ∧ P a ∧ w'.keeper = t

variable [LawfulNumbered E]

open CachedRepository

variable (options w) in
theorem result_getMany (ids : List Int32) : ∃ es, (((Table.cached E options).policy.getMany ids
    fun ids => present (Table.repository.getMany ids)).run w).value.result = .ok es := by
  let p := (Table.cached E options).policy
  obtain ⟨found, read⟩ : ∃ found, ((p.readCached ids).run w).value = .ok found := by
    cases ids with
    | nil => exact Agreeing.readCached_all options w
    | cons id ids =>
        obtain ⟨keys, mapped, -⟩ := Key.mapM_item (E := E) (id :: ids)
        exact Policy.readMany_ok mapped w
  cases found with
  | some es => exact ⟨es, by rw [Policy.getMany_of_hit read]; rfl⟩
  | none => exact ⟨w.keeper.getMany ids, by rw [value_getMany_of_miss (fun _ => Agreeing.counter_still) read]; rfl⟩

theorem yields_getMany (writable : w.link.faults.SpareWrites) (filed : w.keeper.Filed) (ids : List Int32) :
    Yields (w.link.memory.Late options.ttl) w ((Table.cached E options).getMany ids) (fun _ => True) w.keeper := by
  let p := (Table.cached E options).policy
  let fetch : List Int32 → Call (Table E) (List (Option E)) := fun ids => present (Table.repository.getMany ids)
  obtain ⟨es, result⟩ := result_getMany w options ids
  refine (reaches_settle (p.spares_getMany ids fetch) writable
    (Operation.answers_defer p (.getMany ids fetch) w).lifetime).mono And.left ?_
  rintro _ w' ⟨rfl, keeper⟩
  rw [result]
  exact ⟨es, rfl, trivial, keeper.trans (accounted_getMany (fun _ => Agreeing.counter_still) filed ids).keeper⟩

theorem yields_get (writable : w.link.faults.SpareWrites) (filed : w.keeper.Filed) {id : Int32} {row : E}
    (found : w.keeper.get id = some row) :
    Yields (w.link.memory.Late options.ttl) w ((Table.cached E options).get id) (·.isSome = true) w.keeper := by
  let p := (Table.cached E options).policy
  obtain ⟨key, keyed⟩ := Key.item_ok (E := E) id
  have result : ∃ e, ((p.get id Table.repository.get).run w).value.result = .ok (some e) := by
    cases cached : (w.link.value? key).bind (Entity.decode? (E := E)) with
    | some e => exact ⟨e, by rw [(Policy.get_of_hit keyed p Table.repository.get cached).1]; rfl⟩
    | none =>
        refine ⟨row, ?_⟩
        rw [(Policy.get_of_miss keyed p Table.repository.get cached).1, Policy.result_fetched,
          show (Table.repository.get id w.keeper).1 = .ok (some row) from congrArg Except.ok found]
        rfl
  obtain ⟨e, result⟩ := result
  refine (reaches_settle (p.spares_get id Table.repository.get) writable
    (Operation.answers_defer p (.get id Table.repository.get) w).lifetime).mono And.left ?_
  rintro _ w' ⟨rfl, keeper⟩
  rw [result]
  exact ⟨some e, rfl, rfl, keeper.trans (accounted_get p filed id).keeper⟩

theorem yields_contains (id : Int32) :
    Yields False w ((Table.cached E options).contains id) (fun _ => True) w.keeper := by
  obtain ⟨key, keyed⟩ := Key.item_ok (E := E) id
  have result : ∃ there, ((Policy.contains E id Table.repository.contains).run w).value = .ok there := by
    cases cached : (w.link.value? key).bind (Entity.decode? (E := E)) with
    | some e => exact ⟨true, (Policy.contains_of_hit keyed Table.repository.contains cached).1⟩
    | none => exact ⟨_, (Policy.contains_of_miss keyed Table.repository.contains cached).1⟩
  obtain ⟨there, result⟩ := result
  have run := Effect.run_lift (do
    let answer ← Policy.contains E id Table.repository.contains
    return answer.mapError PolicyError.toRepository) w
  refine .inr ⟨.ok there, ?_, there, rfl, trivial, ?_⟩
  · refine (congrArg Outcome.value run).trans ?_
    rw [Step.run_bind, result]
    rfl
  · exact (congrArg (fun r => r.state.keeper) run).trans (keeper_contains id)

omit [LawfulNumbered E] in
theorem yields_count : Yields False w (Table.cached E options).count (fun _ => True) w.keeper :=
  .inr ⟨.ok w.keeper.count, rfl, _, rfl, trivial, rfl⟩

/-! ### Writes -/

omit [LawfulNumbered E] in
theorem reaches_save (writable : w.link.faults.SpareWrites) (e : E) :
    Reaches (w.link.memory.Late options.ttl ∧ ∃ change ∈ ((Table.cached E options).policy.saved e
        (w.keeper.save e).1).outbox.changes, change.fills?.isSome = true)
      .deadline ((Table.cached E options).save e) w fun answer w' =>
        answer = (w.keeper.save e).1 ∧ w'.keeper = (w.keeper.save e).2 := by
  let p := (Table.cached E options).policy
  have value := p.value_save e (Table.repository.save e) w
  have settled := reaches_settle (p.spares_save e (Table.repository.save e)) writable
    (Operation.answers_defer p (.save e (Table.repository.save e)) w).lifetime
  rw [p.result_save, PolicyError.mapError_repository, p.state_save] at settled
  refine (settled.mono (And.imp_right fun fills => value ▸ fills) fun _ _ done => done).bind ?_
  rintro _ w' ⟨rfl, keeper⟩
  rw [show (Table.repository.save e w.keeper).1 = (w.keeper.save e).1 from rfl]
  cases (w.keeper.save e).1 with
  | ok saved => exact .inr ⟨_, rfl, rfl, keeper⟩
  | error error => exact .inr ⟨_, rfl, rfl, keeper⟩

omit [LawfulNumbered E] in
theorem yields_save (writable : w.link.faults.SpareWrites) {e saved : E} (written : w.keeper.save e = (.ok saved, t)) :
    Yields (w.link.memory.Late options.ttl) w ((Table.cached E options).save e) (· = saved) t := by
  refine (reaches_save writable e).mono And.left ?_
  rintro _ w' ⟨rfl, keeper⟩
  rw [written] at keeper ⊢
  exact ⟨saved, rfl, rfl, keeper⟩

omit [LawfulNumbered E] in
theorem reaches_refused (writable : w.link.faults.SpareWrites) {e : E} {error : RepositoryError}
    (refused : w.keeper.save e = (.error error, w.keeper)) :
    Reaches False .deadline ((Table.cached E options).save e) w fun _ w' => w'.keeper = w.keeper := by
  -- what is refused is not written, and to forget it is always in time
  refine (reaches_save writable e).mono ?_ ?_
  · rintro ⟨-, change, member, fills⟩
    rw [refused] at member
    rcases List.mem_append.1 member with item | family
    · obtain ⟨key, -, rfl⟩ := Policy.mem_clears item
      cases fills
    · cases List.mem_singleton.1 family
      cases fills
  · rintro _ w' ⟨-, keeper⟩
    rw [refused] at keeper
    exact keeper

theorem save_overflows (never : w.link.faults = .never) (late : w.link.memory.Late options.ttl) {e saved : E}
    (written : w.keeper.save e = (.ok saved, t)) (identity : Entity.hasIdentity saved = true) :
    (Step.run (ExceptT.run ((Table.cached E options).save e)) w).value = .error .deadline := by
  -- a row has a stored form, so it is asked for, and then it is late
  let p := (Table.cached E options).policy
  obtain ⟨key, keyed⟩ := Key.item_ok (E := E) (Entity.id saved)
  obtain ⟨value, encoded, -⟩ := LawfulNumbered.decode?_encode saved
  have asks : (Change.store key saved).request? options.ttl = some (.set key value options.ttl) := by
    rw [Change.request?, encoded]
    rfl
  have result := p.value_save e (Table.repository.save e) w
  rw [show (Table.repository.save e w.keeper).1 = .ok saved from congrArg Prod.fst written, Policy.saved,
    Policy.stores_singleton (Policy.cacheKey?_some.2 ⟨identity, keyed⟩)] at result
  have state := p.state_save e (Table.repository.save e) w
  have settled : (Step.run (ExceptT.run (settle (p.save e (Table.repository.save e)))) w).value =
      .error .deadline := by
    refine settle_overflows ?_
    rw [result, state]
    exact Outbox.discharge_overflows (w := { w with keeper := (w.keeper.save e).2 }) never late asks
      [.clear (Key.family E)]
  exact Effect.bind_overflows settled _

theorem yields_delete (writable : w.link.faults.SpareWrites) {e : E} (deleted : w.keeper.delete e = (.ok (), t)) :
    Yields False w ((Table.cached E options).delete e) (fun _ => True) t := by
  let p := (Table.cached E options).policy
  obtain ⟨key, keyed⟩ := Key.item_ok (E := E) (Entity.id e)
  have run := Policy.remove_of_key p keyed (Table.repository.delete e) w
  rw [show Table.repository.delete e w.keeper = (.ok (), t) from deleted, Policy.removed] at run
  have settled := reaches_settle (p.spares_remove e (Table.repository.delete e)) writable
    (Operation.answers_defer p (.remove e (Table.repository.delete e)) w).lifetime
  rw [run] at settled
  refine Reaches.bind (settled.mono ?_ fun _ _ done => done) ?_
  · rintro ⟨-, change, member, fills⟩
    rcases List.mem_cons.1 member with rfl | member
    · cases fills
    · cases List.mem_singleton.1 member
      cases fills
  · rintro _ w' ⟨rfl, keeper⟩
    exact .inr ⟨_, rfl, (), rfl, trivial, keeper⟩

/-! ### Markers of an empty table -/

structure Rowless (w : World (Table E)) : Prop where
  keeper : w.keeper = .empty
  never : w.link.faults = .never
  wellFormed : w.link.memory.store.WellFormed
  roomy : 0 < w.link.memory.store.capacity
  only : ∀ x ∈ w.link.memory.store.entries, x.key = Key.family E

namespace Rowless

variable (h : Rowless w)
include h

omit [LawfulNumbered E] in
theorem found_nil : (Table.cached E options).policy.found w.link = [] := by
  refine List.eq_nil_iff_forall_not_mem.2 fun e member => ?_
  obtain ⟨pair, listed, -⟩ := List.mem_filterMap.1
    (show e ∈ Lookup.listed E (w.link.values (Key.family E)) from member)
  obtain ⟨scanned, item⟩ := List.mem_filter.1 listed
  obtain ⟨x, stored, -, -, rfl⟩ := Store.mem_scan.1 (Cache.Link.mem_values scanned)
  exact Key.ne_family_of_isItem item (h.only x stored)

omit [LawfulNumbered E] in
theorem agreeing : Agreeing w where
  coherent x member := .inl ⟨h.only x member, h.keeper ▸ Table.all_empty⟩
  wellFormed := h.wellFormed
  writable := h.never ▸ Cache.Faults.never_spareWrites

omit [LawfulNumbered E] in
theorem value_of_unmarked (options : Policy.Options) (unmarked : options.allowZeroCount = true →
      w.link.memory.store.lookup? w.link.memory.now (Key.family E) = none) :
    (((Table.cached E options).policy.getMany []
      fun ids => present (Table.repository.getMany ids)).run w).value =
        (Table.cached E options).policy.scheduled
          (if options.allowZeroCount then [.mark (Key.family E)] else []) (.ok []) := by
  have missed : (((Table.cached E options).policy.readCached []).run w).value = .ok none := by
    obtain ⟨found, read⟩ := Agreeing.readCached_all options w
    cases found with
    | none => exact read
    | some es =>
        obtain ⟨_, -, same, ⟨some_found, -⟩ | ⟨-, allowed, ⟨bytes, marked, -⟩, -⟩⟩ := Policy.readAll_hit read
        · exact absurd (same.symm.trans h.found_nil) some_found
        · rw [unmarked allowed] at marked
          cases marked
  have none_there : w.keeper.getMany [] = [] := by
    rw [h.keeper, Table.getMany, if_pos List.isEmpty_nil, Table.all_empty]
  rw [value_getMany_of_miss (fun _ => Agreeing.counter_still) missed, none_there]
  cases allowed : options.allowZeroCount <;>
    simp [Policy.collects, Policy.stores, Table.cached, CachedRepository.policy, Policy.new, Policy.withCounter,
      allowed]

omit [LawfulNumbered E] in
theorem spared {x : Act (Table E) Int32 α} (spares : Act.Spares x)
    (keeper : (x.run w).state.keeper = w.keeper) : Rowless (x.run w).state :=
  have reads := spares.link w
  ⟨keeper.trans h.keeper, reads.faults.trans h.never, reads.touched.wellFormed h.wellFormed,
    reads.touched.capacity ▸ h.roomy, fun x member => h.only x (reads.touched.mem member)⟩

end Rowless

structure Marked (ttl : Span) (mark : Nat) (w : World (Table E)) : Prop extends Rowless w where
  marker : ⟨Key.family E, Marker.bytes, some (mark + ttl)⟩ ∈ w.link.memory.store.entries
  fits : ¬ Overdue ttl mark

omit [LawfulNumbered E] in
theorem Rowless.wait (h : Rowless w) (span : Span) : Rowless (w.wait span) :=
  ⟨h.keeper, h.never, h.wellFormed, h.roomy, h.only⟩

theorem Rowless.reads (h : Rowless w) (markless : options.allowZeroCount = false) :
    Reaches False .deadline ((Table.cached E options).getMany []) w
      fun answer w' => ∃ es, answer = .ok es ∧ Rowless w' := by
  let p := (Table.cached E options).policy
  let fetch : List Int32 → Call (Table E) (List (Option E)) := fun ids => present (Table.repository.getMany ids)
  have refused : ¬ options.allowZeroCount = true := ne_true_of_eq_false markless
  have value : ((p.getMany [] fetch).run w).value = _ :=
    h.value_of_unmarked options fun allowed => absurd allowed refused
  rw [if_neg refused] at value
  obtain ⟨settled, state⟩ := settle_nothing (congrArg Deferred.result value)
    (congrArg (fun d => d.outbox.changes) value)
  refine .inr ⟨_, settled, [], rfl, ?_⟩
  rw [show (Step.run (ExceptT.run ((Table.cached E options).getMany [])) w).state = _ from state]
  exact h.spared (p.spares_getMany [] fetch)
    (accounted_getMany (fun _ => Agreeing.counter_still) (h.keeper ▸ Table.filed_empty) []).keeper

omit [LawfulNumbered E] in
theorem Marked.wait {ttl : Span} {mark : Nat} (h : Marked ttl mark w) (span : Span) : Marked ttl mark (w.wait span) :=
  ⟨h.toRowless.wait span, h.marker, h.fits⟩

/-- When there is a marker written at one time, the time of the marker after a read of all rows. -/
def remarked (ttl : Span) (mark now : Nat) : Nat :=
  if mark + ttl < now then now else mark

theorem le_remarked (ttl : Span) (mark now : Nat) : mark ≤ remarked ttl mark now := by
  rw [remarked]
  split <;> omega

section

variable {ttl : Span} {mark : Nat} (allowed : options.allowZeroCount = true) (lifetime : options.ttl = some ttl)
include allowed lifetime

theorem Rowless.marks (h : Rowless w)
    (unmarked : w.link.memory.store.lookup? w.link.memory.now (Key.family E) = none) :
    Reaches (Overdue ttl w.link.memory.now) .deadline
      ((Table.cached E options).getMany []) w
      fun answer w' => ∃ es, answer = .ok es ∧ Marked ttl w.link.memory.now w' := by
  let p := (Table.cached E options).policy
  let fetch : List Int32 → Call (Table E) (List (Option E)) := fun ids => present (Table.repository.getMany ids)
  have spares := p.spares_getMany [] fetch
  have reads := spares.link w
  have value : ((p.getMany [] fetch).run w).value = _ := h.value_of_unmarked options fun _ => unmarked
  rw [if_pos allowed] at value
  have read := h.spared spares
    (accounted_getMany (fun _ => Agreeing.counter_still) (h.keeper ▸ Table.filed_empty) []).keeper
  show Reaches _ _ (settle (p.getMany [] fetch)) w _
  by_cases late : Overdue ttl w.link.memory.now
  · refine .inl ⟨late, settle_overflows ?_⟩
    rw [value]
    refine Outbox.discharge_overflows read.never ?_ rfl []
    rw [← reads.now] at late
    exact lifetime ▸ Memory.late_some.2 late
  · have fits : w.link.memory.deadline options.ttl = .ok (some (w.link.memory.now + ttl)) := by
      rw [lifetime]
      exact if_neg late
    obtain ⟨settled, stored⟩ := h.agreeing.run_settle spares fits
      (Operation.answers_defer p (.getMany [] fetch) w).lifetime
    rw [value] at settled stored
    refine .inr ⟨_, settled, [], rfl, ⟨?_, ?_, ?_, ?_, ?_⟩, ?_, late⟩
    · exact stored.keeper.trans read.keeper
    · exact stored.faults.trans read.never
    all_goals rw [stored.memory]
    · exact read.wellFormed.push _
    · exact read.roomy
    · intro x member
      rcases Store.mem_push member with rfl | ⟨old, -⟩
      · rfl
      · exact read.only x old
    · exact (Store.find?_some (Store.find?_push_self read.roomy _)).1

omit [LawfulNumbered E] lifetime in
theorem Marked.stays (h : Marked ttl mark w) (alive : w.link.memory.now ≤ mark + ttl) :
    Reaches False .deadline ((Table.cached E options).getMany []) w
      fun answer w' => ∃ es, answer = .ok es ∧ Marked ttl mark w' := by
  let p := (Table.cached E options).policy
  let fetch : List Int32 → Call (Table E) (List (Option E)) := fun ids => present (Table.repository.getMany ids)
  have spares := p.spares_getMany [] fetch
  have live : Entry.isExpired w.link.memory.now ⟨Key.family E, Marker.bytes, some (mark + ttl)⟩ = false :=
    Entry.isExpired_eq_false.2 fun d given => by cases given; exact alive
  have hit := Agreeing.hit_of_shown h.never
    ⟨h.found_nil, allowed, _, h.wellFormed.lookup?_eq h.marker live, marks_bytes⟩
  have run := Policy.getMany_of_hit hit fetch
  have read := h.spared spares (by rw [run]; exact Policy.keeper_readCached (fun _ => Agreeing.counter_still) [] w)
  have value : ((p.getMany [] fetch).run w).value = _ := congrArg Outcome.value run
  obtain ⟨settled, state⟩ := settle_nothing (congrArg Deferred.result value)
    (congrArg (fun d => d.outbox.changes) value)
  refine .inr ⟨_, settled, [], rfl, ?_⟩
  rw [show (Step.run (ExceptT.run ((Table.cached E options).getMany [])) w).state = _ from state]
  exact ⟨read, (spares.link w).touched.mem_of_live h.wellFormed h.marker live, h.fits⟩

theorem Marked.again (h : Marked ttl mark w) :
    Reaches (Overdue ttl (remarked ttl mark w.link.memory.now)) .deadline
      ((Table.cached E options).getMany []) w
      fun answer w' => ∃ es, answer = .ok es ∧ Marked ttl (remarked ttl mark w.link.memory.now) w' := by
  rw [remarked]
  split
  · next expired =>
      have unmarked : w.link.memory.store.lookup? w.link.memory.now (Key.family E) = none := by
        cases found : w.link.memory.store.lookup? w.link.memory.now (Key.family E) with
        | none => rfl
        | some value =>
            obtain ⟨x, member, same, live, -⟩ := Store.lookup?_some found
            cases List.inj_on_of_nodup_map h.wellFormed.distinct member h.marker same
            exact absurd (Entry.isExpired_eq_false.1 live _ rfl) (Nat.not_le.2 expired)
      exact h.toRowless.marks allowed lifetime unmarked
  · next alive => exact (h.stays allowed (Nat.not_lt.1 alive)).mono False.elim fun _ _ done => done

end

end

end Lookaside
