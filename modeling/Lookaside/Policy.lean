import Lookaside.Outbox
import Lookaside.Policy.Lookup
import Lookaside.Policy.Options

/-!
# The cache policy

A read looks into the cache first and calls the repository on a miss. A write goes to the repository
first. Either way the changes of the cache that follow from the answer are only scheduled: an operation
gives a `Deferred` result, and it is its `commit` that writes to the cache. Arguments are checked before
anything is done.
-/

namespace Lookaside

inductive Policy.Source (E : Type) where
  | scan
  | fixed (entities : List E)

/-- A cache policy for the entities of one type, kept by something with states of type `ρ`. -/
structure Policy (ρ E : Type) where
  options : Policy.Options
  counter? : Option (Call ρ Nat)
  source : Policy.Source E

namespace Policy

variable {ρ E I : Type}

def new (options : Options) : Policy ρ E := ⟨options, none, .scan⟩

def withCounter (counter : Call ρ Nat) (p : Policy ρ E) : Policy ρ E :=
  { p with counter? := some counter }

def withSource (source : Source E) (p : Policy ρ E) : Policy ρ E := { p with source }

def batch (p : Policy ρ E) (changes : List (Change E)) : Batch E := ⟨changes, p.options.ttl⟩

def settled {α : Type} (result : Except PolicyError α) : Deferred E α := ⟨result, .empty⟩

variable [Entity E I]

def scheduled {α : Type} (p : Policy ρ E) (changes : List (Change E)) (result : Except PolicyError α) :
    Deferred E α :=
  ⟨result, .holding (p.batch changes)⟩

/-- The key under which an entity may be cached: it has identity, and its id forms a key. -/
def identityKey (e : E) : Act ρ I (Option String) :=
  if Entity.hasIdentity e then
    match Key.item E (Entity.id e) with
    | .ok key => return some key
    | .error error => do
      Act.report (.keyless error)
      return none
  else return none

def storing (e : E) : Act ρ I (List (Change E)) := do
  match ← identityKey e with
  | some key => return [.store key e]
  | none => return []

def clearing (e : E) : Act ρ I (List (Change E)) := do
  match ← identityKey e with
  | some key => return [.clear key]
  | none => return []

def storingAll : List E → Act ρ I (List (Change E))
  | [] => return []
  | e :: es => do
    let first ← storing e
    return first ++ (← storingAll es)

/-! ## Writing -/

/-- Has an entity written. On success its written form is to be cached, on failure its cached copy is
to be removed; in both cases the family key is cleared, because the set of all entities may be another
one now. -/
def save (p : Policy ρ E) (e : E) (persist : Call ρ E) : Act ρ I (Deferred E E) := do
  match ← Act.call .persist persist with
  | .ok persisted =>
    let changes ← storing persisted
    return p.scheduled (changes ++ [.clear (Key.family E)]) (.ok persisted)
  | .error error =>
    Act.report (.persistFailed (Entity.typeName E) error)
    let changes ← clearing e
    return p.scheduled (changes ++ [.clear (Key.family E)]) (.error (.repository error))

/-- Has an entity deleted, its cached copy and the family key to be cleared on success. -/
def remove (p : Policy ρ E) (e : E) (persist : Call ρ Unit) : Act ρ I (Deferred E Unit) :=
  match Key.item E (Entity.id e) with
  | .error error => return settled (.error error.toPolicy)
  | .ok key => do
    match ← Act.call .persist persist with
    | .ok () => return p.scheduled [.clear key, .clear (Key.family E)] (.ok ())
    | .error error => return settled (.error (.repository error))

/-! ## Reading -/

/-- Reads one entity. What the repository finds is to be cached if it has identity. -/
def get (p : Policy ρ E) (id : I) (fetch : I → Call ρ (Option E)) :
    Act ρ I (Deferred E (Option E)) :=
  match Key.item E id with
  | .error error => return settled (.error error.toPolicy)
  | .ok key => do
    match ← Lookup.one key with
    | some e =>
      Act.report (.hit key)
      return settled (.ok (some e))
    | none =>
      Act.report (.miss key)
      match ← Act.call (.fetch id) (fetch id) with
      | .ok (some e) =>
        if Entity.hasIdentity e then return p.scheduled [.store key e] (.ok (some e))
        else return settled (.ok (some e))
      | .ok none => return settled (.ok none)
      | .error error => return settled (.error (.repository error))

def getCached (id : I) : Act ρ I (Except PolicyError (Option E)) :=
  match Key.item E id with
  | .error error => return .error error.toPolicy
  | .ok key => do return .ok (← Lookup.one key)

variable (E) in
def contains (id : I) (fetch : I → Call ρ Bool) : Act ρ I (Except PolicyError Bool) :=
  match Key.item E id with
  | .error error => return .error error.toPolicy
  | .ok key => do
    match ← (Lookup.one key : Act ρ I (Option E)) with
    | some _ => return .ok true
    | none => return (← Act.call (.fetch id) (fetch id)).mapError .repository

/-- Reads several entities from the cache: all of them or none. -/
def readMany (ids : List I) : Act ρ I (Except PolicyError (Option (List E))) :=
  match ids.mapM (Key.item E) with
  | .error error => return .error error.toPolicy
  | .ok keys => do
    match ← Lookup.allOf keys.length keys with
    | some entities =>
      Act.report (.manyHit (Entity.typeName E) entities.length)
      return .ok (some entities)
    | none => return .ok none

def readSource (p : Policy ρ E) : Act ρ I (List E) :=
  match p.source with
  | .scan => Lookup.family
  | .fixed entities => return entities

def readMarker (p : Policy ρ E) : Act ρ I (Except PolicyError (Option (List E))) := do
  if p.options.allowZeroCount then
    if ← Lookup.marker E then
      Act.report (.markerHit (Entity.typeName E))
      return .ok (some [])
    else return .ok none
  else return .ok none

/-- Accepts cached entities as all there are, if a count does not say otherwise. -/
def accept (counter? : Option (Call ρ Nat)) (entities : List E) :
    Act ρ I (Except PolicyError (Option (List E))) :=
  match counter? with
  | none => do
    Act.report (.allHit (Entity.typeName E) entities.length)
    return .ok (some entities)
  | some counter => do
    match ← Act.count counter with
    | .error error => return .error (.repository error)
    | .ok total =>
      if entities.length = total then
        Act.report (.allHit (Entity.typeName E) total)
        return .ok (some entities)
      else
        Act.report (.staleCount (Entity.typeName E) entities.length total)
        return .ok none

variable (E) in
def missingCounter : PolicyError :=
  .invalidArgument
    ("count validation is enabled for " ++ Entity.typeName E ++ " but no count oracle is set")

def validator (p : Policy ρ E) : Except PolicyError (Option (Call ρ Nat)) :=
  if p.options.validateCount then
    match p.counter? with
    | some counter => .ok (some counter)
    | none => .error (missingCounter E)
  else .ok none

def readAll (p : Policy ρ E) : Act ρ I (Except PolicyError (Option (List E))) :=
  match p.validator with
  | .error error => return .error error
  | .ok counter? => do
    let entities ← p.readSource
    if entities.isEmpty then p.readMarker else accept counter? entities

/-- The changes that follow from what the repository answered to a request for several entities. Only
a request for all of them can show that there are none. -/
def collecting (p : Policy ρ E) (all : Bool) (entities : List E) : Act ρ I (List (Change E)) :=
  if all && entities.isEmpty && p.options.allowZeroCount then return [.mark (Key.family E)]
  else storingAll entities

/-- Reads several entities, or all of them if no ids are given. The cache answers alone or not at all:
otherwise the repository is asked for everything that was requested. -/
def getMany (p : Policy ρ E) (ids : List I) (fetch : List I → Call ρ (List (Option E))) :
    Act ρ I (Deferred E (List E)) := do
  let cached ← if ids.isEmpty then p.readAll else readMany ids
  match cached with
  | .error error => return settled (.error error)
  | .ok (some entities) => return settled (.ok entities)
  | .ok none =>
    match ← Act.call (.fetchMany ids) (fetch ids) with
    | .error error => return settled (.error (.repository error))
    | .ok replies =>
      let entities := replies.filterMap id
      Act.report (.fetched (Entity.typeName E) ids.length entities.length)
      let changes ← p.collecting ids.isEmpty entities
      return p.scheduled changes (.ok entities)

end Policy

end Lookaside
