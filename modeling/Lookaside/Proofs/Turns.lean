import Lookaside.Proofs.Calls
import Lookaside.Proofs.Numbering
import Lookaside.Proofs.Steadiness
import Mathlib

/-!
# Runs of a cached table

In a run a table is called through its cache, rows are written past the cache, and time passes. Whatever is
written, every item in the cache keeps to a row that there is, and nothing in it outlives what is stored now.
As long as nothing is written past the cache it agrees with the table. All of this holds even when the ids have
run out and rows get ids that are not positive: nothing is cached for those.
-/

namespace Lookaside

variable {E : Type} [NumberedEntity E]

open Repository

def Repository.Record.isRead {E I : Type} : Record E I → Bool
  | .save _ => false
  | .delete _ => false
  | _ => true

theorem Table.perform_read (t : Table E) {record : Record E Int32} (reads : record.isRead = true) :
    (Table.repository.perform record t).2 = t := by
  cases record <;> first | rfl | cases reads

def Table.Identified (t : Table E) : Prop := ∀ e ∈ t.all, Entity.hasIdentity e = true

theorem Table.Sound.identified [LawfulNumbered E] {t : Table E} {spare : Nat} (h : t.Sound spare) :
    t.Identified := by
  intro e member
  obtain ⟨id, row⟩ := Table.mem_all.1 member
  exact (LawfulNumbered.hasIdentity_iff e).2 (h.own row ▸ h.positive row)

inductive Turn (E : Type) where
  | call (record : Record E Int32)
  | direct (entity : E)
  | wait (span : Span)

namespace Turn

def isDirect : Turn E → Bool
  | direct _ => true
  | _ => false

def span : Turn E → Span
  | wait span => span
  | _ => 0

def record? : Turn E → Option (Record E Int32)
  | call record => some record
  | direct e => some (.save e)
  | wait _ => none

def step (options : Policy.Options) (w : World (Table E)) : Turn E → World (Table E)
  | call record => ((Table.cached E options).call record w).state
  | direct e => { w with keeper := (w.keeper.save e).2 }
  | wait span => w.wait span

end Turn

def World.play (options : Policy.Options) (turns : List (Turn E)) (w : World (Table E)) : World (Table E) :=
  turns.foldl (Turn.step options) w

def Turn.elapsed (turns : List (Turn E)) : Span := (turns.map Turn.span).sum

/-! ## What a call does -/

/-- A world in which lookups have been made, then changes of the cache that account for what has become of
the table. -/
structure Called (deadline : Option Nat) (changes : List (Change E)) (w w' : World (Table E)) : Prop where
  accounts : w.keeper.Accounts w'.keeper changes
  now : w'.link.memory.now = w.link.memory.now
  stored : ∃ s, Store.Touched w.link.memory.now w.link.memory.store s ∧
    w'.link.memory.store = changes.foldl (Change.make deadline) s

variable {options : Policy.Options} {w w' : World (Table E)} {deadline : Option Nat}

theorem CachedRepository.steady_perform {ρ I : Type} {F : Type} [Entity F I] (c : CachedRepository ρ F I)
    (record : Record F I) : Act.Steady (ExceptT.run (c.perform record)) := by
  have answered {α β : Type} {x : Effect ρ I α} (steady : Act.Steady x.run) (f : α → β) :
      Act.Steady (ExceptT.run (do return f (← x))) :=
    Act.closed_steady.andThen steady fun _ => Act.closed_steady.pure _
  cases record with
  | get id => exact answered (c.steady_get id) _
  | getMany ids => exact answered (c.steady_getMany ids) _
  | contains id => exact answered (c.steady_contains id) _
  | save e => exact answered (c.steady_save e) _
  | delete e => exact answered (c.steady_delete e) _
  | count => exact answered c.steady_count _

variable [LawfulNumbered E]

theorem accounted_defer (filed : w.keeper.Filed) {record : Record E Int32}
    {operation : Operation (Table E) E Int32}
    (given : (Table.cached E options).operation? record = some operation) :
    Accounted w ((operation.defer (Table.cached E options).policy).run w)
      (Table.repository.perform record w.keeper).2 := by
  cases record with
  | count => cases given
  | get id =>
      cases given
      exact accounted_get _ filed id
  | getMany ids =>
      cases given
      exact accounted_getMany (fun _ => Agreeing.counter_still) filed ids
  | contains id =>
      cases given
      exact ⟨keeper_contains id, Table.accounts_nil _⟩
  | save e =>
      cases given
      exact accounted_save _ filed e
  | delete e =>
      cases given
      exact accounted_remove _ e

section

variable (writable : w.link.faults.SpareWrites) (filed : w.keeper.Filed)
  (fits : w.link.memory.deadline options.ttl = .ok deadline)
include writable fits

omit [LawfulNumbered E] in
theorem call_value (record : Record E Int32) {operation : Operation (Table E) E Int32}
    (given : (Table.cached E options).operation? record = some operation) {value : operation.Value}
    (result : ((operation.defer (Table.cached E options).policy).run w).value.result = .ok value) :
    ((Table.cached E options).call record w).value = .ok (.ok (operation.answer value)) := by
  obtain ⟨w', notes, -, run, -⟩ := (Table.cached E options).call_of_writable record given writable fits
  rw [run, result]
  rfl

include filed

theorem called_operation (record : Record E Int32) {operation : Operation (Table E) E Int32}
    (given : (Table.cached E options).operation? record = some operation) :
    ((Table.cached E options).call record w).state.keeper = (Table.repository.perform record w.keeper).2 ∧
      Called deadline ((operation.defer (Table.cached E options).policy).run w).value.outbox.changes w
        ((Table.cached E options).call record w).state := by
  have accounted := accounted_defer filed given
  have reads := (operation.spares_defer (Table.cached E options).policy).link w
  obtain ⟨w', notes, -, run, stored⟩ := (Table.cached E options).call_of_writable record given writable fits
  rw [run]
  refine ⟨stored.keeper.trans accounted.keeper, ?_, ?_, _, reads.touched, ?_⟩
  · rw [stored.keeper, accounted.keeper]
    exact accounted.accounts
  · rw [stored.memory, ← reads.now]
  · rw [stored.memory]

theorem called_of_value (record : Record E Int32) {operation : Operation (Table E) E Int32}
    (given : (Table.cached E options).operation? record = some operation)
    {deferred : Deferred E operation.Value}
    (value : ((operation.defer (Table.cached E options).policy).run w).value = deferred) :
    Called deadline deferred.outbox.changes w ((Table.cached E options).call record w).state :=
  value ▸ (called_operation writable filed fits record given).2

theorem called_call (record : Record E Int32) :
    ((Table.cached E options).call record w).state.keeper = (Table.repository.perform record w.keeper).2 ∧
      ∃ changes, Called deadline changes w ((Table.cached E options).call record w).state := by
  cases given : (Table.cached E options).operation? record with
  | some operation =>
      obtain ⟨keeper, called⟩ := called_operation writable filed fits record given
      exact ⟨keeper, _, called⟩
  | none =>
      -- only a request for a count is no operation, and it leaves everything as it is
      cases record with
      | count => exact ⟨rfl, [], Table.accounts_nil _, rfl, _, .refl _, rfl⟩
      | _ => cases given

theorem keeper_read {record : Record E Int32} (reads : record.isRead = true) :
    ((Table.cached E options).call record w).state.keeper = w.keeper :=
  (called_call writable filed fits record).1.trans (w.keeper.perform_read reads)

end

/-! ## What a run keeps -/

/-- Nothing lives longer than what is stored now. -/
def Memory.Timely (ttl : Option Span) (m : Memory) : Prop :=
  ∀ span, ttl = some span → ∀ x ∈ m.store.entries, ∃ d, x.deadline = some d ∧ d ≤ m.now + span

structure Tracked (options : Policy.Options) (later : Span) (w : World (Table E)) : Prop where
  wellFormed : w.link.memory.store.WellFormed
  writable : w.link.faults.SpareWrites
  known : ∀ x ∈ w.link.memory.store.entries, x.key ≠ Key.family E →
    ∃ id e, 0 < id ∧ Key.item E id = .ok x.key ∧ w.keeper.get id = some e
  timely : w.link.memory.Timely options.ttl
  filed : w.keeper.Filed
  fits : w.Fits options later

namespace Called

variable {changes : List (Change E)} (called : Called deadline changes w w')
include called

omit [LawfulNumbered E] in
theorem wellFormed (wf : w.link.memory.store.WellFormed) : w'.link.memory.store.WellFormed := by
  obtain ⟨s, touched, stored⟩ := called.stored
  rw [stored]
  exact (touched.wellFormed wf).foldl_make changes

theorem mem {x : Entry} (member : x ∈ w'.link.memory.store.entries) :
    w'.keeper.Backs x.key x.value ∧ x.deadline = deadline ∨
      x ∈ w.link.memory.store.entries ∧ x.key ∉ changes.map Change.key := by
  obtain ⟨s, touched, stored⟩ := called.stored
  rw [stored] at member
  exact (Table.backs_of_mem_foldl called.accounts.asked member).imp_right fun ⟨old, untouched⟩ =>
    ⟨touched.mem old, untouched⟩

theorem backs {x : Entry} (member : x ∈ w'.link.memory.store.entries)
    (h : x ∈ w.link.memory.store.entries → w.keeper.Backs x.key x.value) : w'.keeper.Backs x.key x.value := by
  rcases called.mem member with ⟨backed, -⟩ | ⟨old, untouched⟩
  · exact backed
  · exact called.accounts.backs untouched (h old)

theorem coherent (h : w.keeper.Coherent w.link.memory.store) : w'.keeper.Coherent w'.link.memory.store :=
  fun x member => called.backs member (h x)

theorem fresh (h : w.keeper.Fresh w.link.memory.store) : w'.keeper.Fresh w'.link.memory.store :=
  fun x member item => called.backs member fun old => h x old item

theorem known (h : ∀ x ∈ w.link.memory.store.entries, x.key ≠ Key.family E →
      ∃ id e, 0 < id ∧ Key.item E id = .ok x.key ∧ w.keeper.get id = some e) :
    ∀ x ∈ w'.link.memory.store.entries, x.key ≠ Key.family E →
      ∃ id e, 0 < id ∧ Key.item E id = .ok x.key ∧ w'.keeper.get id = some e := by
  intro x member item
  rcases called.mem member with ⟨⟨family, -⟩ | ⟨id, e, positive, keyed, found, -⟩, -⟩ | ⟨old, untouched⟩
  · exact absurd family item
  · exact ⟨id, e, positive, keyed, found⟩
  · obtain ⟨id, e, positive, keyed, found⟩ := h x old item
    exact ⟨id, e, positive, keyed, (called.accounts.rows positive keyed untouched).trans found⟩

theorem timely {ttl : Option Span} (fits : w.link.memory.deadline ttl = .ok deadline)
    (h : w.link.memory.Timely ttl) : w'.link.memory.Timely ttl := by
  rintro span rfl x member
  rw [called.now]
  rcases called.mem member with ⟨-, new⟩ | ⟨old, -⟩
  · exact ⟨_, new.trans (Memory.deadline_some fits), Nat.le_refl _⟩
  · exact h span rfl x old

end Called

omit [LawfulNumbered E] in
theorem Table.get_save_of_some {t : Table E} {id : Int32} {row : E} (found : t.get id = some row) (e : E) :
    ∃ row', (t.save e).2.get id = some row' := by
  have put (t' : Table E) (e' : E) (same : t'.get id = some row) : ∃ row', (t'.put e').get id = some row' := by
    rw [get_put]
    split
    · exact ⟨e', rfl⟩
    · exact ⟨row, same⟩
  rcases t.save_cases e with ⟨error, saved⟩ | ⟨-, -, saved⟩ | ⟨-, saved⟩ <;> rw [saved]
  · exact ⟨row, found⟩
  · exact put t e found
  · exact put _ _ found

namespace Tracked

variable {later : Span} {turn : Turn E} {turns : List (Turn E)}

theorem step (h : Tracked options (Turn.elapsed (turn :: turns) + later) w) :
    Tracked options (Turn.elapsed turns + later) (turn.step options w) := by
  have elapsed : Turn.elapsed (turn :: turns) = turn.span + Turn.elapsed turns := List.sum_cons
  have fits_of (now : (turn.step options w).link.memory.now = w.link.memory.now + turn.span) :
      (turn.step options w).Fits options (Turn.elapsed turns + later) :=
    h.fits.of_le (by rw [now, elapsed, Nat.add_assoc, Nat.add_assoc])
  cases turn with
  | call record =>
      obtain ⟨deadline, fits⟩ := Memory.deadline_ok h.fits
      obtain ⟨keeper, changes, called⟩ := called_call h.writable h.filed fits record
      refine ⟨called.wellFormed h.wellFormed, ?_, called.known h.known, called.timely fits h.timely, ?_,
        fits_of called.now⟩
      · exact (((Table.cached E options).steady_perform record).faults w) ▸ h.writable
      · exact keeper ▸ h.filed.perform record
  | direct e =>
      refine ⟨h.wellFormed, h.writable, ?_, h.timely, h.filed.perform (.save e), fits_of rfl⟩
      intro x member item
      obtain ⟨id, row, positive, keyed, found⟩ := h.known x member item
      obtain ⟨row', found'⟩ := Table.get_save_of_some found e
      exact ⟨id, row', positive, keyed, found'⟩
  | wait span =>
      refine ⟨h.wellFormed, h.writable, h.known, ?_, h.filed, fits_of rfl⟩
      intro ttl given x member
      obtain ⟨d, lives, le⟩ := h.timely ttl given x member
      exact ⟨d, lives, Nat.le_trans le (Nat.add_le_add_right (Nat.le_add_right _ span) ttl)⟩

theorem play (h : Tracked options (Turn.elapsed turns + later) w) :
    Tracked options later (w.play options turns) := by
  induction turns generalizing w with
  | nil => exact (Nat.zero_add later) ▸ h
  | cons turn turns ih => exact ih h.step

theorem keeper_play (h : Tracked options (Turn.elapsed turns + later) w) :
    (w.play options turns).keeper = w.keeper.after (turns.filterMap Turn.record?) := by
  induction turns generalizing w with
  | nil => rfl
  | cons turn turns ih =>
      refine (ih h.step).trans ?_
      cases turn with
      | call record =>
          obtain ⟨deadline, fits⟩ := Memory.deadline_ok h.fits
          have keeper := (called_call h.writable h.filed fits record).1
          exact congrArg (Table.after (turns.filterMap Turn.record?)) keeper
      | direct e => rfl
      | wait span => rfl

theorem coherent_play (h : Tracked options (Turn.elapsed turns + later) w)
    (coherent : w.keeper.Coherent w.link.memory.store) (own : ∀ turn ∈ turns, turn.isDirect = false) :
    (w.play options turns).keeper.Coherent (w.play options turns).link.memory.store := by
  -- nothing is written past the cache, so it is told of all that becomes of the table
  induction turns generalizing w with
  | nil => exact coherent
  | cons turn turns ih =>
      rw [List.forall_mem_cons] at own
      refine ih h.step ?_ own.2
      cases turn with
      | call record =>
          obtain ⟨deadline, fits⟩ := Memory.deadline_ok h.fits
          obtain ⟨-, changes, called⟩ := called_call h.writable h.filed fits record
          exact called.coherent coherent
      | direct e => cases own.1
      | wait span => exact coherent

end Tracked

omit [LawfulNumbered E] in
theorem tracked_start {capacity : Nat} {memory : Memory} (made : Memory.create capacity = .ok memory)
    {faults : Cache.Faults} (writable : faults.SpareWrites) {later : Span}
    (fits : ∀ ttl, options.ttl = some ttl → Span.seconds (memory.now + later + ttl) ≤ Memory.lastSecond) :
    Tracked options later ⟨⟨memory, faults, 0⟩, (Table.empty : Table E)⟩ := by
  have empty := Memory.create_ok made
  refine ⟨?_, writable, ?_, ?_, Table.filed_empty, fits⟩
  · rw [empty]
    exact Store.wellFormed_nil _
  · rw [empty]
    exact nofun
  · rw [empty]
    exact nofun

section

variable {capacity : Nat} {memory : Memory} (made : Memory.create capacity = .ok memory)
  {faults : Cache.Faults} (writable : faults.SpareWrites) {turns : List (Turn E)}
  (fits : ∀ ttl, options.ttl = some ttl →
    Span.seconds (memory.now + Turn.elapsed turns + ttl) ≤ Memory.lastSecond)
include made writable fits

theorem agreeing_play (own : ∀ turn ∈ turns, turn.isDirect = false) :
    let w := World.play options turns ⟨⟨memory, faults, 0⟩, .empty⟩
    Agreeing w ∧ w.keeper.Filed ∧ ∃ deadline, w.link.memory.deadline options.ttl = .ok deadline := by
  intro w
  let start : World (Table E) := ⟨⟨memory, faults, 0⟩, .empty⟩
  have tracked : Tracked options (Turn.elapsed turns + 0) start := tracked_start made writable fits
  have empty : start.link.memory.store = ⟨capacity, []⟩ := congrArg Memory.store (Memory.create_ok made)
  have coherent : start.keeper.Coherent start.link.memory.store := empty ▸ Table.coherent_nil _ _
  have played := tracked.play
  exact ⟨⟨tracked.coherent_play coherent own, played.wellFormed, played.writable⟩, played.filed,
    Memory.deadline_ok played.fits⟩

theorem identified_play (few : Table.creations (turns.filterMap Turn.record?) < 2147483647) :
    (World.play options turns ⟨⟨memory, faults, 0⟩, .empty⟩).keeper.Identified := by
  let start : World (Table E) := ⟨⟨memory, faults, 0⟩, .empty⟩
  have tracked : Tracked options (Turn.elapsed turns + 0) start := tracked_start made writable fits
  have growing : (Table.empty.after (turns.filterMap Turn.record?)).Growing (Table.creations []) :=
    Table.Growing.after ((List.append_nil (turns.filterMap Turn.record?)).symm ▸ .empty few)
  exact tracked.keeper_play.symm ▸ growing.identified

end

omit [LawfulNumbered E] in
theorem World.steady_play (w : World (Table E)) (options : Policy.Options) (turns : List (Turn E)) :
    (w.play options turns).link.faults = w.link.faults ∧
      (w.play options turns).link.memory.store.capacity = w.link.memory.store.capacity := by
  induction turns generalizing w with
  | nil => exact ⟨rfl, rfl⟩
  | cons turn turns ih =>
      obtain ⟨faults, capacity⟩ := ih (turn.step options w)
      cases turn with
      | call record =>
          have steady := (Table.cached E options).steady_perform record
          exact ⟨faults.trans (steady.faults w), capacity.trans (steady.capacity w)⟩
      | direct e => exact ⟨faults, capacity⟩
      | wait span => exact ⟨faults, capacity⟩

omit [LawfulNumbered E] in
theorem World.capacity_play {capacity : Nat} {memory : Memory} (made : Memory.create capacity = .ok memory)
    (faults : Cache.Faults) (t : Table E) (options : Policy.Options) (turns : List (Turn E)) :
    (World.play options turns ⟨⟨memory, faults, 0⟩, t⟩).link.memory.store.capacity = capacity :=
  (World.steady_play ⟨⟨memory, faults, 0⟩, t⟩ options turns).2.trans
    (congrArg (fun m : Memory => m.store.capacity) (Memory.create_ok made))

end Lookaside
