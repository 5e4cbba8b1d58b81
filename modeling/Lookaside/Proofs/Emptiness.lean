import Lookaside.Entity.Member
import Lookaside.Proofs.Discharge
import Lookaside.Proofs.Key
import Lookaside.Proofs.Session
import Mathlib

namespace Lookaside

variable {ρ E I : Type} [Entity E I]

structure Invocation (ρ E I : Type) where
  operation : Operation ρ E I
  world : World ρ

namespace Invocation

def outbox (p : Policy ρ E) (x : Invocation ρ E I) : Outbox E :=
  ((x.operation.defer p).run x.world).value.outbox

/-- All entities were asked for, not only in the cache, and the keeper had none. -/
def FoundNone (p : Policy ρ E) (x : Invocation ρ E I) : Prop :=
  ∃ fetch replies, x.operation = .getMany [] fetch ∧
    ((p.getMany [] fetch).run x.world).notes.filterMap Note.errand? = [.fetchMany []] ∧
    (fetch [] ((p.readCached ([] : List I)).run x.world).state.keeper).1 = .ok replies ∧
    replies.filterMap id = []

/-- An entity was written, or failed to be, or was deleted. -/
def Alters (p : Policy ρ E) (x : Invocation ρ E I) : Prop :=
  (∃ e persist, x.operation = .save e persist) ∨
    ∃ e persist, x.operation = .remove e persist ∧
      ((p.remove e persist).run x.world).value.result = .ok ()

end Invocation

open Policy

variable {p : Policy ρ E}

theorem Operation.Schedules.family {operation : Operation ρ E I} {change : Change E}
    (h : operation.Schedules p change) (fills : change.fills? = some (Key.family E)) :
    p.options.allowZeroCount = true ∧ change = .mark (Key.family E) ∧
      ∃ fetch, operation = .getMany [] fetch := by
  cases h with
  | clear => cases fills
  | store _ cacheable =>
      exact absurd (Option.some.inj fills) (Key.item_ne_family (cacheKey?_some.1 cacheable).2)
  | fetched keyed => exact absurd (Option.some.inj fills) (Key.item_ne_family keyed)
  | mark fetch allowed => exact ⟨allowed, rfl, fetch, rfl⟩

namespace Invocation

variable {x : Invocation ρ E I}

theorem outbox_eq (p : Policy ρ E) (operation : Operation ρ E I) (w : World ρ) :
    ((operation.outbox p).run w).value = outbox p ⟨operation, w⟩ := by
  rw [operation.run_outbox]
  rfl

theorem lifetime (p : Policy ρ E) (x : Invocation ρ E I) :
    ∀ batch, (x.outbox p).batch? = some batch → batch.ttl = p.options.ttl :=
  (x.operation.answers_defer p x.world).lifetime

theorem foundNone_of_fills {change : Change E} (h : change ∈ (x.outbox p).changes)
    (fills : change.fills? = some (Key.family E)) :
    p.options.allowZeroCount = true ∧ x.FoundNone p := by
  obtain ⟨operation, w⟩ := x
  obtain ⟨allowed, rfl, fetch, rfl⟩ := (operation.schedules_defer p w change h).family fills
  cases (Operation.getMany [] fetch).causes_defer p w h with
  | marked called answer none_found _ => exact ⟨allowed, fetch, _, rfl, called, answer, none_found⟩

theorem Alters.clears (h : x.Alters p) :
    ∃ changes, (x.outbox p).changes = changes ++ [.clear (Key.family E)] := by
  obtain ⟨operation, w⟩ := x
  rcases h with ⟨e, persist, rfl⟩ | ⟨e, persist, rfl, removed⟩
  · rw [outbox, Operation.defer, value_save]
    cases (persist w.keeper).1 <;> exact ⟨_, rfl⟩
  · rw [outbox, Operation.defer]
    cases keyed : Key.item E (Entity.id e) with
    | error error =>
        rw [remove_of_invalid p keyed] at removed
        cases removed
    | ok key =>
        rw [remove_of_key p keyed] at removed ⊢
        cases answer : (persist w.keeper).1 with
        | error error =>
            rw [answer] at removed
            cases removed
        | ok _ => exact ⟨[.clear key], rfl⟩

end Invocation

structure Chronicle (ρ E I : Type) where
  session : Session ρ E
  held : List (Invocation ρ E I)
  committed : List (Invocation ρ E I)

/-- That there are no entities has been committed, and no change of them since. -/
def Policy.Shown (p : Policy ρ E) (committed : List (Invocation ρ E I)) : Prop :=
  ∃ earlier x later, committed = earlier ++ x :: later ∧ x.FoundNone p ∧ ∀ y ∈ later, ¬ y.Alters p

theorem Policy.shown_concat {committed : List (Invocation ρ E I)} {x : Invocation ρ E I}
    (h : x.FoundNone p) : p.Shown (committed ++ [x]) :=
  ⟨committed, x, [], rfl, h, nofun⟩

theorem Policy.Shown.concat {committed : List (Invocation ρ E I)} (h : p.Shown committed)
    {x : Invocation ρ E I} (spared : ¬ x.Alters p) : p.Shown (committed ++ [x]) := by
  obtain ⟨earlier, y, later, rfl, found, since⟩ := h
  refine ⟨earlier, y, later ++ [x], List.append_assoc _ _ _, found, ?_⟩
  exact List.forall_mem_append.2 ⟨since, List.forall_mem_singleton.2 spared⟩

def Move.span : Move ρ E I → Span
  | wait span => span
  | _ => 0

namespace Chronicle

def start (memory : Memory) (faults : Cache.Faults) (keeper : ρ) : Chronicle ρ E I :=
  ⟨.start memory faults keeper, [], []⟩

def step (p : Policy ρ E) (c : Chronicle ρ E I) (move : Move ρ E I) : Chronicle ρ E I where
  session := ((move.step p).run c.session).state
  held :=
    match move with
    | .call operation => c.held ++ [⟨operation, c.session.world⟩]
    | .discharge n => c.held.eraseIdx n
    | .drop n => c.held.eraseIdx n
    | _ => c.held
  committed :=
    match move with
    | .discharge n => c.committed ++ c.held[n]?.toList
    | _ => c.committed

def play (p : Policy ρ E) (c : Chronicle ρ E I) (moves : List (Move ρ E I)) : Chronicle ρ E I :=
  moves.foldl (step p) c

theorem session_play (p : Policy ρ E) (c : Chronicle ρ E I) (moves : List (Move ρ E I)) :
    (c.play p moves).session = ((Session.play p moves).run c.session).state := by
  induction moves generalizing c with
  | nil => rfl
  | cons move moves ih => exact ih (c.step p move)

structure Sound (p : Policy ρ E) (c : Chronicle ρ E I) : Prop where
  held : c.session.held = c.held.map (Invocation.outbox p)
  deletes : c.session.world.link.faults.SpareDeletes
  marked : ∀ x ∈ c.session.world.link.memory.store.entries, x.key = Key.family E →
    p.options.allowZeroCount = true ∧ p.Shown c.committed

variable {c : Chronicle ρ E I} {deadline : Option Nat}

theorem Sound.discharge (h : c.Sound p)
    (fits : c.session.world.link.memory.deadline p.options.ttl = .ok deadline) {n : Nat}
    {x : Invocation ρ E I} (found : c.held[n]? = some x) :
    ∃ w' notes, (c.step p (.discharge n)).session = ⟨w', c.session.held.eraseIdx n⟩ ∧
      Batch.Applied p.options.ttl deadline (x.outbox p).changes c.session.world w' notes := by
  obtain ⟨w', events, notes, run, -, applied⟩ := Outbox.applied_discharge (I := I) fits (x.lifetime p)
  have held : c.session.held[n]? = some (x.outbox p) := by
    rw [h.held, List.getElem?_map, found]
    rfl
  refine ⟨w', notes, ?_, applied⟩
  simp only [step, Move.step, Step.run, held]
  exact congrArg (Session.mk · _) (congrArg Outcome.state run)

theorem Sound.discharge_none (h : c.Sound p) {n : Nat} (missing : c.held[n]? = none) :
    c.step p (.discharge n) = c := by
  have held : c.session.held[n]? = none := by
    rw [h.held, List.getElem?_map, missing]
    rfl
  have same : c.held.eraseIdx n = c.held :=
    List.eraseIdx_of_length_le (List.getElem?_eq_none_iff.1 missing)
  simp [step, Move.step, Step.run, held, missing, same]

theorem Sound.now_step (h : c.Sound p) (move : Move ρ E I)
    (fits : c.session.world.link.memory.deadline p.options.ttl = .ok deadline) :
    (c.step p move).session.world.link.memory.now =
      c.session.world.link.memory.now + move.span := by
  cases move with
  | call operation => exact ((operation.spares_outbox p).link c.session.world).now
  | discharge n =>
      cases found : c.held[n]? with
      | none => rw [h.discharge_none found]; rfl
      | some x =>
          obtain ⟨w', notes, same, applied⟩ := h.discharge fits found
          rw [same]
          exact applied.steady.2
  | drop n => rfl
  | wait span => rfl
  | alter change => rfl

theorem sound_step (h : c.Sound p) (move : Move ρ E I)
    (fits : c.session.world.link.memory.deadline p.options.ttl = .ok deadline) :
    (c.step p move).Sound p := by
  cases move with
  | call operation =>
      have reads := (operation.spares_outbox p).link c.session.world
      refine ⟨?_, ?_, fun x member => h.marked x (reads.touched.mem member)⟩
      · show c.session.held ++ [((operation.outbox p).run c.session.world).value] =
          List.map (Invocation.outbox p) (c.held ++ [⟨operation, c.session.world⟩])
        rw [h.held, Invocation.outbox_eq, List.map_append]
        rfl
      · exact reads.faults.symm ▸ h.deletes
  | discharge n =>
      cases found : c.held[n]? with
      | none => exact (h.discharge_none found).symm ▸ h
      | some x =>
          obtain ⟨w', notes, same, applied⟩ := h.discharge fits found
          have committed : (c.step p (.discharge n)).committed = c.committed ++ [x] := by
            simp only [step, found, Option.toList_some]
          refine ⟨?_, ?_, ?_⟩
          · rw [same, h.held]
            exact List.eraseIdx_map _ _ _
          · rw [same]
            exact applied.steady.1.symm ▸ h.deletes
          · rw [same, committed]
            intro y member family
            -- a call that alters clears the family key last, any other leaves it alone or marks it
            by_cases alters : x.Alters p
            · obtain ⟨changes, last⟩ := alters.clears
              rw [last] at applied
              exact absurd family (applied.cleared h.deletes member)
            · rcases applied.mem member with ⟨change, scheduled, fills⟩ | old
              · rw [family] at fills
                obtain ⟨allowed, none_found⟩ := Invocation.foundNone_of_fills scheduled fills
                exact ⟨allowed, shown_concat none_found⟩
              · exact (h.marked y old family).imp_right fun shown => shown.concat alters
  | drop n =>
      refine ⟨?_, h.deletes, h.marked⟩
      show c.session.held.eraseIdx n = _
      rw [h.held]
      exact List.eraseIdx_map _ _ _
  | wait span => exact ⟨h.held, h.deletes, h.marked⟩
  | alter change => exact ⟨h.held, h.deletes, h.marked⟩

def waited (moves : List (Move ρ E I)) : Span :=
  (moves.map Move.span).sum

theorem sound_play (h : c.Sound p) {moves : List (Move ρ E I)}
    (fits : ∀ ttl, p.options.ttl = some ttl → Span.seconds
      (c.session.world.link.memory.now + waited moves + ttl) ≤ Memory.lastSecond) :
    (c.play p moves).Sound p := by
  induction moves generalizing c with
  | nil => exact h
  | cons move moves ih =>
      obtain ⟨deadline, lives⟩ := Memory.deadline_ok fits
      refine ih (sound_step h move lives) ?_
      rw [h.now_step move lives, Nat.add_assoc _ move.span]
      exact fits

theorem sound_start {capacity : Nat} {memory : Memory} (made : Memory.create capacity = .ok memory)
    {faults : Cache.Faults} (deletes : faults.SpareDeletes) (keeper : ρ) :
    (start memory faults keeper : Chronicle ρ E I).Sound p := by
  rw [Memory.create_ok made]
  refine ⟨rfl, deletes, ?_⟩
  intro x none
  cases none

end Chronicle

/-- The cache answers that there are no entities only after that was found, and no change of them has
been committed since. -/
theorem none_cached_was_found (p : Policy ρ E) {capacity : Nat} {memory : Memory}
    (made : Memory.create capacity = .ok memory) {faults : Cache.Faults}
    (deletes : ∀ n key, faults n (.delete key) = none) (keeper : ρ) {moves : List (Move ρ E I)}
    (fits : ∀ ttl, p.options.ttl = some ttl →
      Span.seconds (memory.now + Chronicle.waited moves + ttl) ≤ Memory.lastSecond)
    (fetch : List I → Call ρ (List (Option E))) :
    let c := Chronicle.play p (.start memory faults keeper) moves
    let r := (p.getMany [] fetch).run c.session.world
    (r.value.result = .ok [] → r.notes.filterMap Note.errand? = [] →
      p.options.allowZeroCount = true ∧ ∃ earlier x later, c.committed = earlier ++ x :: later ∧
        x.FoundNone p ∧ ∀ y ∈ later, ¬ y.Alters p) ∧
      ∀ (ids : List I) (w : World ρ), ids ≠ [] →
        ∀ change ∈ ((p.getMany ids fetch).run w).value.outbox.changes,
          change.fills? ≠ some (Key.family E) := by
  intro c r
  constructor
  · intro result silent
    have sound : c.Sound p := Chronicle.sound_play (Chronicle.sound_start made deletes keeper) fits
    obtain ⟨_, -, -, answer⟩ := readAll_hit (readCached_of_getMany result silent)
    rcases answer with ⟨some_found, -⟩ | ⟨-, -, ⟨value, stored, -⟩, -⟩
    · exact absurd rfl some_found
    · obtain ⟨x, member, family, -⟩ := Store.lookup?_some stored
      exact sound.marked x member family
  · intro ids w some_ids change scheduled fills
    obtain ⟨-, -, _, same⟩ :=
      ((Operation.getMany ids fetch).schedules_defer p w change scheduled).family fills
    cases same
    exact some_ids rfl

theorem no_member_cached_was_found :
    let p : Policy Unit Member := .new ⟨false, true, some 5000000000⟩
    let memory : Memory := ⟨⟨2, []⟩, 1000000000⟩
    let faults : Cache.Faults := .ofRules [⟨.scan, none, .operationFailed "down"⟩]
    let moves : List (Move Unit Member Int32) :=
      [.call (.getMany [] fun _ k => (.ok [none], k)), .call (.save ⟨0, "ada"⟩ fun k => (.ok ⟨7, "ada"⟩, k)),
        .discharge 0, .drop 0, .wait 3000000000]
    let fetch : List Int32 → Call Unit (List (Option Member)) := fun _ k => (.ok [some ⟨7, "ada"⟩], k)
    let c := Chronicle.play p (.start memory faults ()) moves
    let r := (p.getMany [] fetch).run c.session.world
    Memory.create 2 = .ok memory ∧ (∀ n key, faults n (.delete key) = none) ∧
      (∀ ttl, p.options.ttl = some ttl →
        Span.seconds (memory.now + Chronicle.waited moves + ttl) ≤ Memory.lastSecond) ∧
      r.value.result = .ok [] ∧ r.notes.filterMap Note.errand? = [] ∧
      p.options.allowZeroCount = true ∧ ∃ earlier x later, c.committed = earlier ++ x :: later ∧
        x.FoundNone p ∧ ∀ y ∈ later, ¬ y.Alters p := by
  intro p memory faults moves fetch c r
  have made : Memory.create 2 = .ok memory := rfl
  have deletes : ∀ n key, faults n (.delete key) = none := fun _ _ => rfl
  have fits : ∀ ttl, p.options.ttl = some ttl →
      Span.seconds (memory.now + Chronicle.waited moves + ttl) ≤ Memory.lastSecond := by
    rintro _ ⟨⟩
    decide
  have result : r.value.result = .ok [] := by
    dsimp only [r, c, fetch, moves, faults, memory, p]
    cbv
  have silent : r.notes.filterMap Note.errand? = [] := by
    dsimp only [r, c, fetch, moves, faults, memory, p]
    cbv
  exact ⟨made, deletes, fits, result, silent,
    (none_cached_was_found p made deletes () fits fetch).1 result silent⟩

end Lookaside
