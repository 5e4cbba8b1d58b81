import Lookaside.Entity
import Lookaside.Marker
import Lookaside.World

namespace Lookaside

inductive Change (E : Type) where
  | store (key : String) (entity : E)
  | mark (key : String)
  | clear (key : String)
deriving DecidableEq, Repr

def Change.key {E : Type} : Change E → String
  | store key _ => key
  | mark key => key
  | clear key => key

structure Batch (E : Type) where
  changes : List (Change E)
  ttl : Option Span
deriving DecidableEq, Repr

namespace Change

variable {E ρ I : Type} [Entity E I]

def apply (ttl : Option Span) : Change E → Effect ρ I Unit
  | store key entity =>
    match Entity.encode entity with
    | .ok bytes => do
      let reply ← Act.set key bytes ttl
      Effect.lift (Act.reportFailure (.storeFailed key) reply)
    | .error reason => Effect.lift (Act.report (.unencodable key (.encodingFailed reason)))
  | mark key => do
    let reply ← Act.set key Marker.bytes ttl
    Effect.lift (Act.reportFailure (.markFailed key) reply)
  | clear key => Effect.lift do
    let reply ← Act.delete key
    Act.reportFailure (.clearFailed key) reply

end Change

namespace Batch

variable {E ρ I : Type} [Entity E I]

def applyAll (ttl : Option Span) : List (Change E) → Effect ρ I Unit
  | [] => pure ()
  | change :: changes => do
    change.apply ttl
    applyAll ttl changes

def apply (batch : Batch E) : Effect ρ I Unit :=
  applyAll batch.ttl batch.changes

end Batch

end Lookaside
