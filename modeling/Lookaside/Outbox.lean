import Lookaside.Batch

/-!
# The outbox

An operation does not change the cache itself: it puts a batch into an outbox, and whoever called it
discharges the outbox once the outcome is settled. An outbox holds at most one batch, the latest.
-/

namespace Lookaside

structure Outbox (E : Type) where
  batch? : Option (Batch E)
deriving DecidableEq, Repr

/-- A result that is held back until the cache has been changed. -/
structure Deferred (E α : Type) where
  result : Except PolicyError α
  outbox : Outbox E

namespace Outbox

variable {E ρ I : Type}

def empty : Outbox E := ⟨none⟩

def holding (batch : Batch E) : Outbox E := ⟨some batch⟩

def isScheduled (outbox : Outbox E) : Bool := outbox.batch?.isSome

/-- Puts a batch in, in place of an earlier one. -/
def schedule (outbox : Outbox E) (batch : Batch E) : Act ρ I (Outbox E) := do
  if outbox.isScheduled then Act.report .replaced
  return holding batch

def take (outbox : Outbox E) : Option (Batch E) × Outbox E :=
  (outbox.batch?, empty)

def discharge [Entity E I] (outbox : Outbox E) : Effect ρ I Unit :=
  match outbox.batch? with
  | none => pure ()
  | some batch => do
    Effect.lift (Act.report (.discharging batch.changes.length))
    batch.apply

end Outbox

def Deferred.commit {E ρ I α : Type} [Entity E I] (d : Deferred E α) :
    Effect ρ I (Except PolicyError α) := do
  d.outbox.discharge
  return d.result

end Lookaside
