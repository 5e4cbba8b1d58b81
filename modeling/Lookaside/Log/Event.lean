import Lookaside.Bytes
import Lookaside.Error
import Lookaside.Log.Milestone

namespace Lookaside.Log

inductive Event where
  | hit (key : String)
  | miss (key : String)
  | manyHit (typeName : String) (count : Nat)
  | partialHit (key : String) (requested : Nat)
  | allHit (typeName : String) (count : Nat)
  | markerHit (typeName : String)
  | staleCount (typeName : String) (cached total : Nat)
  | fetched (typeName : String) (requested count : Nat)
  | persistFailed (typeName : String) (error : RepositoryError)
  | saved (typeName id : String)
  | deleted (typeName id : String)
  | replaced
  | discharging (changes : Nat)
  | readFailed (key : String) (error : CacheError)
  | scanFailed (start : String) (error : CacheError)
  | undecodable (key : String) (value : Bytes)
  | unencodable (key : String) (error : CodecError)
  | storeFailed (key : String) (error : CacheError)
  | markFailed (key : String) (error : CacheError)
  | clearFailed (key : String) (error : CacheError)
  | keyless (error : KeyError)
  | milestone (m : Milestone)
deriving DecidableEq, Repr

namespace Event

def line : Event → Line
  | hit key => ⟨.trace, "Cache hit for entity", [("key", .text key)]⟩
  | miss key => ⟨.trace, "Cache miss for entity", [("key", .text key)]⟩
  | manyHit typeName count =>
    ⟨.trace, "Cache hit for entities", [("entity_type", .text typeName), ("count", .ofNat count)]⟩
  | partialHit key requested =>
    ⟨.trace, "Partial cache hit for entities",
      [("key", .text key), ("requested", .ofNat requested)]⟩
  | allHit typeName count =>
    ⟨.trace, "Cache hit for all entities",
      [("entity_type", .text typeName), ("count", .ofNat count)]⟩
  | markerHit typeName =>
    ⟨.trace, "Cache hit for zero-count marker", [("entity_type", .text typeName)]⟩
  | staleCount typeName cached total =>
    ⟨.debug, "Cached entity count is stale",
      [("entity_type", .text typeName), ("cached", .ofNat cached), ("total", .ofNat total)]⟩
  | fetched typeName requested count =>
    ⟨.trace, "Fetched entities from repository",
      [("entity_type", .text typeName), ("requested", .ofNat requested),
        ("fetched", .ofNat count)]⟩
  | persistFailed typeName error =>
    ⟨.debug, "Persist failed, scheduling cache invalidation",
      [("entity_type", .text typeName), ("error", .text error.message)]⟩
  | saved typeName id =>
    ⟨.debug, "Entity saved", [("entity_type", .text typeName), ("id", .text id)]⟩
  | deleted typeName id =>
    ⟨.debug, "Entity deleted", [("entity_type", .text typeName), ("id", .text id)]⟩
  | replaced => ⟨.trace, "Replacing previously scheduled cache action", []⟩
  | discharging changes => ⟨.debug, "Discharging cache action", [("steps", .ofNat changes)]⟩
  | readFailed key error =>
    ⟨.warn, "Cache read failed", [("key", .text key), ("error", .text error.message)]⟩
  | scanFailed start error =>
    ⟨.warn, "Cache prefix scan failed",
      [("prefix", .text start), ("error", .text error.message)]⟩
  -- what is wrong with the value is said in the words of the decoder
  | undecodable key _ => ⟨.warn, "Cached entity deserialization failed", [("key", .text key)]⟩
  | unencodable key error =>
    ⟨.warn, "Entity serialization failed",
      [("key", .text key), ("error", .text error.message)]⟩
  | storeFailed key error =>
    ⟨.warn, "Failed to cache entity", [("key", .text key), ("error", .text error.message)]⟩
  | markFailed key error =>
    ⟨.warn, "Failed to cache zero-count marker",
      [("key", .text key), ("error", .text error.message)]⟩
  | clearFailed key error =>
    ⟨.warn, "Failed to invalidate cache key",
      [("key", .text key), ("error", .text error.message)]⟩
  | keyless error =>
    ⟨.warn, "Entity has identity but no usable cache key", [("error", .text error.message)]⟩
  | milestone m => m.line

end Event

end Lookaside.Log
