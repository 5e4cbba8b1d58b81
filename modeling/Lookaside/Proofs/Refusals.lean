import Lookaside.Entity.AccessToken
import Lookaside.Proofs.Calls
import Mathlib

namespace Lookaside

variable {ρ E I : Type} [Entity E I]

theorem Key.item_error_iff {id : I} {error : KeyError} :
    item E id = .error error ↔ Entity.renderId E id = "" ∧ error = .emptyId (Entity.typeName E) := by
  rw [item]
  split
  · next empty => simp [empty, eq_comm]
  · next text => simp [text]

theorem Key.mapM_item_error_iff {ids : List I} {error : KeyError} :
    ids.mapM (item E) = .error error ↔
      (∃ id ∈ ids, Entity.renderId E id = "") ∧ error = .emptyId (Entity.typeName E) := by
  induction ids with
  | nil => simp [pure, Except.pure]
  | cons id ids ih =>
      rw [List.mapM_cons, List.exists_mem_cons_iff]
      cases keyed : item E id with
      | error cause =>
          obtain ⟨empty, rfl⟩ := item_error_iff.1 keyed
          rw [and_iff_right (.inl empty)]
          exact ⟨fun refused => (Except.error.inj refused).symm, fun same => same ▸ rfl⟩
      | ok key =>
          have text : Entity.renderId E id ≠ "" := (item_ok_iff.1 keyed).1
          rw [or_iff_right text, ← ih]
          cases ids.mapM (item E) <;> simp [bind, Except.bind, pure, Except.pure]

namespace Policy

theorem refusal?_some_iff {α : Type} {x : Except KeyError α} {error : PolicyError} :
    refusal? x = some error ↔ ∃ cause, x = .error cause ∧ error = cause.toPolicy := by
  cases x <;> simp [refusal?, eq_comm]

theorem refusal?_of_cause {α : Type} {x : Except KeyError α} {wrong : Prop} {only : KeyError}
    (causes : ∀ {cause}, x = .error cause ↔ wrong ∧ cause = only) {error : PolicyError} :
    refusal? x = some error ↔ wrong ∧ error = only.toPolicy := by
  rw [refusal?_some_iff]
  constructor
  · rintro ⟨cause, failed, rfl⟩
    obtain ⟨bad, rfl⟩ := causes.1 failed
    exact ⟨bad, rfl⟩
  · rintro ⟨bad, rfl⟩
    exact ⟨only, causes.2 ⟨bad, rfl⟩, rfl⟩

theorem validator_error_iff {p : Policy ρ E} {error : PolicyError} :
    p.validator (I := I) = .error error ↔
      (p.options.validateCount = true ∧ p.counter? = none) ∧ error = missingCounter E := by
  rw [validator]
  split
  · next validates => cases p.counter? <;> simp [validates, eq_comm]
  · next trusting => simp [trusting]

end Policy

namespace Operation

/-- There is an id without text among the arguments, or counts are to be validated without a counter. -/
def Invalid (p : Policy ρ E) : Operation ρ E I → Prop
  | get id _ => Entity.renderId E id = ""
  | getCached id => Entity.renderId E id = ""
  | contains id _ => Entity.renderId E id = ""
  | getMany ids _ => (∃ id ∈ ids, Entity.renderId E id = "") ∨
      ids = [] ∧ p.options.validateCount = true ∧ p.counter? = none
  | save .. => False
  | remove e _ => Entity.renderId E (Entity.id e) = ""

def complaint : Operation ρ E I → String
  | getMany [] _ => "count validation is enabled for " ++ Entity.typeName E ++ " but no count oracle is set"
  | _ => (KeyError.emptyId (Entity.typeName E)).message

variable {p : Policy ρ E} {operation : Operation ρ E I} {error : PolicyError}

theorem refusal?_some_iff :
    operation.refusal? p = some error ↔
      operation.Invalid p ∧ error = .invalidArgument operation.complaint := by
  have keyless {id : I} : Policy.refusal? (Key.item E id) = some error ↔ Entity.renderId E id = "" ∧
      error = .invalidArgument (KeyError.emptyId (Entity.typeName E)).message :=
    Policy.refusal?_of_cause Key.item_error_iff
  cases operation with
  | get id fetch => exact keyless
  | getCached id => exact keyless
  | contains id fetch => exact keyless
  | remove e persist => exact keyless
  | save e persist => simp [refusal?, Invalid]
  | getMany ids fetch =>
      cases ids with
      | nil =>
          have invalid : (getMany [] fetch).Invalid p ↔ p.options.validateCount = true ∧ p.counter? = none := by
            simp [Invalid]
          have missing : .invalidArgument (getMany [] fetch).complaint = Policy.missingCounter E := rfl
          rw [invalid, missing, ← Policy.validator_error_iff (I := I), refusal?, List.isEmpty_nil, if_pos rfl]
          cases p.validator (I := I) <;> simp
      | cons id ids =>
          have invalid : (getMany (id :: ids) fetch).Invalid p ↔
              ∃ id' ∈ id :: ids, Entity.renderId E id' = "" := by
            simp [Invalid]
          rw [invalid, refusal?, List.isEmpty_cons, if_neg Bool.false_ne_true]
          exact Policy.refusal?_of_cause Key.mapM_item_error_iff

theorem run_of_refusal (refused : operation.refusal? p = some error) (w : World ρ) :
    (operation.defer p).run w = ⟨Policy.settled (.error error), w, []⟩ := by
  cases operation with
  | save e persist => cases refused
  | get id fetch =>
      obtain ⟨cause, keyless, rfl⟩ := Policy.refusal?_some_iff.1 refused
      exact Policy.get_of_invalid p keyless fetch w
  | getCached id =>
      obtain ⟨cause, keyless, rfl⟩ := Policy.refusal?_some_iff.1 refused
      rw [defer, Policy.getCached, keyless]
      rfl
  | contains id fetch =>
      obtain ⟨cause, keyless, rfl⟩ := Policy.refusal?_some_iff.1 refused
      rw [defer, Policy.contains, keyless]
      rfl
  | remove e persist =>
      obtain ⟨cause, keyless, rfl⟩ := Policy.refusal?_some_iff.1 refused
      exact Policy.remove_of_invalid p keyless persist w
  | getMany ids fetch =>
      have cached : (p.readCached ids).run w = ⟨.error error, w, []⟩ := by
        rw [refusal?] at refused
        rw [Policy.readCached]
        split at refused
        · next all =>
            rw [if_pos all, Policy.readAll]
            cases valid : p.validator (I := I) with
            | ok counter? =>
                rw [valid] at refused
                cases refused
            | error cause =>
                rw [valid] at refused
                cases refused
                rfl
        · next some_ids =>
            obtain ⟨cause, keyless, rfl⟩ := Policy.refusal?_some_iff.1 refused
            rw [if_neg some_ids, Policy.readMany, keyless]
            rfl
      rw [defer, Policy.getMany_of_error (by rw [cached]), cached]

end Operation

/-- What is refused has been asked of nobody and has changed nothing, neither in a policy nor in a repository
with that policy in front of it. -/
theorem invalid_arguments_come_to_nothing (p : Policy ρ E) (operation : Operation ρ E I) (w : World ρ) :
    ((∃ reason, ((operation.defer p).run w).value.result = .error (.invalidArgument reason)) ↔
        operation.Invalid p) ∧
      (operation.Invalid p → (operation.defer p).run w =
        ⟨Policy.settled (.error (.invalidArgument operation.complaint)), w, []⟩) ∧
      ∀ (c : CachedRepository ρ E I) (record : Repository.Record E I), c.operation? record = some operation →
        operation.Invalid c.policy →
          c.call record w = ⟨.ok (.error (.invalidData operation.complaint)), w, []⟩ := by
  have run (p : Policy ρ E) (invalid : operation.Invalid p) :
      (operation.defer p).run w = ⟨Policy.settled (.error (.invalidArgument operation.complaint)), w, []⟩ :=
    Operation.run_of_refusal (Operation.refusal?_some_iff.2 ⟨invalid, rfl⟩) w
  refine ⟨⟨?_, fun invalid => ⟨_, by rw [run p invalid]; rfl⟩⟩, run p, ?_⟩
  · rintro ⟨reason, failed⟩
    cases (operation.answers_defer p w).blames failed with
    | refused refusal => exact (Operation.refusal?_some_iff.1 refusal).1
  · intro c record given invalid
    obtain ⟨events, -, quiet, called⟩ :=
      c.call_of_settled record given (congrArg Outcome.value (run c.policy invalid))
    rw [called, run c.policy invalid, quiet _ rfl]
    rfl

theorem blank_tokens_come_to_nothing :
    let repository := Repository.scripted AccessToken String
    let c : CachedRepository (Repository.Replies AccessToken) AccessToken String :=
      ⟨repository, ⟨true, true, none⟩⟩
    let ada : AccessToken := ⟨"ada", true, false⟩
    let w : World (Repository.Replies AccessToken) :=
      ⟨.ofMemory ⟨⟨1, [⟨"uRepo_Token_ada", AccessToken.format.encode ada, none⟩]⟩, 10⟩,
        .failing AccessToken (.queryFailed "down")⟩
    let operation : Operation (Repository.Replies AccessToken) AccessToken String :=
      .getMany ["ada", "", "ada"] fun ids => CachedRepository.present (repository.getMany ids)
    operation.Invalid c.policy ∧
      operation.complaint = "Token id is empty and cannot form a cache key" ∧
      (operation.defer c.policy).run w =
        ⟨Policy.settled (.error (.invalidArgument operation.complaint)), w, []⟩ ∧
      c.call (.getMany ["ada", "", "ada"]) w = ⟨.ok (.error (.invalidData operation.complaint)), w, []⟩ := by
  intro repository c ada w operation
  have invalid : operation.Invalid c.policy := .inl ⟨"", by decide, rfl⟩
  obtain ⟨-, run, called⟩ := invalid_arguments_come_to_nothing c.policy operation w
  exact ⟨invalid, rfl, run invalid, called c _ rfl invalid⟩

end Lookaside
