import Lookaside.Policy
import Lookaside.Repository

namespace Lookaside

structure CachedRepository (ρ E I : Type) where
  repository : Repository ρ E I
  options : Policy.Options

namespace CachedRepository

variable {ρ E I : Type}

def policy (c : CachedRepository ρ E I) : Policy ρ E :=
  (Policy.new c.options).withCounter c.repository.count

variable [Entity E I]

/-- Commits what an operation scheduled and gives its result to the caller of the repository. -/
def settle {α : Type} (operation : Act ρ I (Deferred E α)) :
    Effect ρ I (Except RepositoryError α) := do
  let deferred ← Effect.lift operation
  return (← deferred.commit).mapError PolicyError.toRepository

def get (c : CachedRepository ρ E I) (id : I) : Effect ρ I (Except RepositoryError (Option E)) :=
  settle (c.policy.get id c.repository.get)

def present {α : Type} (call : Call ρ (List α)) : Call ρ (List (Option α)) := fun s =>
  let answer := call s
  (answer.1.map fun found => found.map some, answer.2)

def getMany (c : CachedRepository ρ E I) (ids : List I) :
    Effect ρ I (Except RepositoryError (List E)) :=
  settle (c.policy.getMany ids fun ids => present (c.repository.getMany ids))

def contains (c : CachedRepository ρ E I) (id : I) : Effect ρ I (Except RepositoryError Bool) :=
  Effect.lift do
    let answer ← Policy.contains E id c.repository.contains
    return answer.mapError PolicyError.toRepository

def save (c : CachedRepository ρ E I) (e : E) : Effect ρ I (Except RepositoryError E) := do
  match ← settle (c.policy.save e (c.repository.save e)) with
  | .ok saved =>
    Effect.lift (Act.report
      (.saved (Entity.typeName E) (Entity.renderId E (Entity.id saved))))
    return .ok saved
  | .error error => return .error error

def delete (c : CachedRepository ρ E I) (e : E) : Effect ρ I (Except RepositoryError Unit) := do
  match ← settle (c.policy.remove e (c.repository.delete e)) with
  | .ok () =>
    Effect.lift (Act.report
      (.deleted (Entity.typeName E) (Entity.renderId E (Entity.id e))))
    return .ok ()
  | .error error => return .error error

omit [Entity E I] in
def count (c : CachedRepository ρ E I) : Effect ρ I (Except RepositoryError Nat) :=
  Effect.lift (Act.keeper c.repository.count)

end CachedRepository

end Lookaside
