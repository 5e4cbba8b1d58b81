import Lookaside.Proofs.Deferral
import Lookaside.Proofs.Misses
import Lookaside.Proofs.Transparency
import Mathlib

namespace Lookaside

variable {ρ E I : Type}

namespace Note

variable {notes : List (Note I)}

theorem asked_events (h : ∀ note ∈ notes, ∃ e, note = .event e) : asked notes = [] := by
  refine List.filter_eq_nil_iff.2 fun note member => ?_
  obtain ⟨e, rfl⟩ := h note member
  exact Bool.false_ne_true

theorem errands_of_asked (h : asked notes = []) : notes.filterMap errand? = [] := by
  refine List.filterMap_eq_nil_iff.2 fun note member => ?_
  have unasked := List.filter_eq_nil_iff.1 h note member
  cases note with
  | called errand => exact absurd rfl unasked
  | _ => rfl

end Note

theorem Effect.run_map_of_run {α β : Type} {x : Effect ρ I α} {w w' : World ρ} {a : α}
    {notes : List (Note I)} (run : Step.run (ExceptT.run x) w = ⟨.ok a, w', notes⟩) (f : α → β) :
    Step.run (ExceptT.run (do return f (← x))) w = ⟨.ok (f a), w', notes⟩ := by
  rw [ExceptT.run_bind, Step.run_bind, run]
  exact congrArg (Outcome.mk _ _) (List.append_nil notes)

theorem Batch.Applied.unasked [Entity E I] {ttl : Option Span} {deadline : Option Nat}
    {changes : List (Change E)} {w w' : World ρ} {notes : List (Note I)}
    (h : Batch.Applied ttl deadline changes w w' notes) : Note.asked notes = [] := by
  induction h with
  | nil => rfl
  | cons applied _ ih =>
      rw [Note.asked_append, ih, List.append_nil]
      cases applied.trace <;> rfl

open Repository

def Operation.answer : (operation : Operation ρ E I) → operation.Value → Answer E
  | get .., found => .found found
  | getCached _, found => .found found
  | contains .., present => .whether present
  | getMany .., es => .many es
  | save .., e => .written e
  | remove .., _ => .deleted

namespace CachedRepository

def operation? (c : CachedRepository ρ E I) : Record E I → Option (Operation ρ E I)
  | .get id => some (.get id c.repository.get)
  | .getMany ids => some (.getMany ids fun ids => present (c.repository.getMany ids))
  | .contains id => some (.contains id c.repository.contains)
  | .save e => some (.save e (c.repository.save e))
  | .delete e => some (.remove e (c.repository.delete e))
  | .count => none

variable [Entity E I]

def call (c : CachedRepository ρ E I) (record : Record E I) (w : World ρ) :
    Outcome (World ρ) (Note I) (Except Overflow (Except RepositoryError (Answer E))) :=
  Step.run (ExceptT.run (c.perform record)) w

variable {w w' : World ρ} {notes : List (Note I)}

theorem outcome_settle {α : Type} {operation : Act ρ I (Deferred E α)}
    (done : Step.run (ExceptT.run ((operation.run w).value.outbox.discharge : Effect ρ I Unit))
      (operation.run w).state = ⟨.ok (), w', notes⟩) :
    Step.run (ExceptT.run (settle operation)) w =
      ⟨.ok ((operation.run w).value.result.mapError PolicyError.toRepository), w',
        (operation.run w).notes ++ notes⟩ := by
  rw [settle, ExceptT.run_bind, Step.run_bind, Effect.run_lift]
  dsimp only
  rw [Effect.run_map_of_run (Deferred.run_commit done)]

theorem outcome_reported {α : Type} {x y : Effect ρ I (Except RepositoryError α)}
    {k : Except RepositoryError α → Effect ρ I (Except RepositoryError α)} {answer : Except RepositoryError α}
    (same : y = x >>= k)
    (failed : ∀ error, k (.error error) = return .error error)
    (succeeded : ∀ a, ∃ event, k (.ok a) = do
      Effect.lift (Act.report event)
      return .ok a)
    (run : Step.run (ExceptT.run x) w = ⟨.ok answer, w', notes⟩) :
    ∃ events : List (Note I), (∀ note ∈ events, ∃ e, note = .event e) ∧
      (∀ error, answer = .error error → events = []) ∧
      Step.run (ExceptT.run y) w = ⟨.ok answer, w', notes ++ events⟩ := by
  rw [same, ExceptT.run_bind, Step.run_bind, run]
  dsimp only
  cases answer with
  | error error =>
      rw [failed]
      exact ⟨[], List.forall_mem_nil _, fun _ _ => rfl, rfl⟩
  | ok a =>
      obtain ⟨event, reported⟩ := succeeded a
      rw [reported]
      exact ⟨[.event event], List.forall_mem_singleton.2 ⟨event, rfl⟩, nofun, rfl⟩

/-- A call answers what its operation results in once the changes have been made. Only what has succeeded is
reported after that. -/
theorem call_of_discharge (c : CachedRepository ρ E I) (record : Record E I) {operation : Operation ρ E I}
    (given : c.operation? record = some operation)
    (done : Step.run (ExceptT.run (((operation.defer c.policy).run w).value.outbox.discharge : Effect ρ I Unit))
      ((operation.defer c.policy).run w).state = ⟨.ok (), w', notes⟩) :
    ∃ events : List (Note I), (∀ note ∈ events, ∃ e, note = .event e) ∧
      (∀ error, ((operation.defer c.policy).run w).value.result = .error error → events = []) ∧
      c.call record w =
        ⟨.ok ((((operation.defer c.policy).run w).value.result.mapError PolicyError.toRepository).map
          operation.answer), w', ((operation.defer c.policy).run w).notes ++ notes ++ events⟩ := by
  let d := (operation.defer c.policy).run w
  have silent {a : Except RepositoryError (Answer E)} (run : c.call record w = ⟨.ok a, w', d.notes ++ notes⟩) :
      ∃ events : List (Note I), (∀ note ∈ events, ∃ e, note = .event e) ∧
        (∀ error, d.value.result = .error error → events = []) ∧
        c.call record w = ⟨.ok a, w', d.notes ++ notes ++ events⟩ :=
    ⟨[], List.forall_mem_nil _, fun _ _ => rfl, by rw [run, List.append_nil]⟩
  cases record with
  | count => cases given
  | get id =>
      cases given
      exact silent (Effect.run_map_of_run (outcome_settle done) _)
  | getMany ids =>
      cases given
      exact silent (Effect.run_map_of_run (outcome_settle done) _)
  | contains id =>
      cases given
      cases done
      refine silent (Effect.run_map_of_run ?_ _)
      rw [contains, Effect.run_lift]
      simp [d, Operation.defer, Policy.settled]
  | save e =>
      -- only the two writes may report a success of their own
      cases given
      obtain ⟨events, are_events, quiet, run⟩ := outcome_reported (y := c.save e) rfl (fun _ => rfl)
        (fun _ => ⟨_, rfl⟩) (outcome_settle done)
      refine ⟨events, are_events, fun error failed => ?_, Effect.run_map_of_run run _⟩
      exact quiet error.toRepository (congrArg (Except.mapError PolicyError.toRepository) failed)
  | delete e =>
      cases given
      obtain ⟨events, are_events, quiet, run⟩ := outcome_reported (y := c.delete e) rfl (fun _ => rfl)
        (fun _ => ⟨_, rfl⟩) (outcome_settle done)
      refine ⟨events, are_events, fun error failed => ?_, Effect.run_map_of_run run _⟩
      exact quiet error.toRepository (congrArg (Except.mapError PolicyError.toRepository) failed)

theorem call_of_settled (c : CachedRepository ρ E I) (record : Record E I) {operation : Operation ρ E I}
    (given : c.operation? record = some operation) {result : Except PolicyError operation.Value}
    (settled : ((operation.defer c.policy).run w).value = Policy.settled result) :
    ∃ events : List (Note I), Note.asked events = [] ∧ (∀ error, result = .error error → events = []) ∧
      c.call record w = ⟨.ok ((result.mapError PolicyError.toRepository).map operation.answer),
        ((operation.defer c.policy).run w).state, ((operation.defer c.policy).run w).notes ++ events⟩ := by
  have done : Step.run (ExceptT.run (((operation.defer c.policy).run w).value.outbox.discharge :
      Effect ρ I Unit)) ((operation.defer c.policy).run w).state =
        ⟨.ok (), ((operation.defer c.policy).run w).state, []⟩ := by
    rw [settled]
    rfl
  obtain ⟨events, are_events, quiet, run⟩ := c.call_of_discharge record given done
  rw [settled, List.append_nil] at run
  rw [settled] at quiet
  exact ⟨events, Note.asked_events are_events, quiet, run⟩

theorem call_of_writable (c : CachedRepository ρ E I) (record : Record E I) {operation : Operation ρ E I}
    (given : c.operation? record = some operation) (writable : w.link.faults.SpareWrites)
    {deadline : Option Nat} (fits : w.link.memory.deadline c.options.ttl = .ok deadline) :
    let d := (operation.defer c.policy).run w
    ∃ (w' : World ρ) (notes : List (Note I)), Note.asked notes = [] ∧
      c.call record w = ⟨.ok ((d.value.result.mapError PolicyError.toRepository).map operation.answer), w',
        d.notes ++ notes⟩ ∧
      d.state.Stored (d.value.outbox.changes.foldl (Change.make deadline) d.state.link.memory.store) w' := by
  intro d
  have reads := (operation.spares_defer c.policy).link w
  obtain ⟨w', reports, notes, done, are_reports, applied⟩ := Outbox.applied_discharge (I := I)
    ((Memory.deadline_congr reads.now _).trans fits) (operation.answers_defer c.policy w).lifetime
  obtain ⟨events, are_events, -, run⟩ := c.call_of_discharge record given done
  refine ⟨w', reports ++ notes ++ events, ?_, ?_, applied.stored (reads.faults ▸ writable)⟩
  · rw [Note.asked_append, Note.asked_append, Note.asked_events are_reports, Note.asked_events are_events,
      applied.unasked]
    rfl
  · rw [run, List.append_assoc]

end CachedRepository

end Lookaside
