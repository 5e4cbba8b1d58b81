import Lookaside.Log.Line

namespace Lookaside.Log

inductive Milestone where
  | starting (ttlSeconds maxEntries : Nat) (validateCount allowZeroCount : Bool)
  | readEmpty (count : Nat)
  | readEmptyAgain (count cachedEntries : Nat)
  | seeded (count wildcards : Nat)
  | readAll (count total : Nat)
  | nothingSeeded
  | readById (id : Int32) (domain : String)
  | readByIds (requested found : Nat)
  | renamed (id : Int32) (domain : String)
  | rejected (id : Int32) (error : String)
  | deleted (id : Int32) (stillExists : Bool)
  | finished (total cachedEntries : Nat)
deriving DecidableEq, Repr

namespace Milestone

def line : Milestone → Line
  | starting ttlSeconds maxEntries validateCount allowZeroCount =>
    ⟨.info, "Starting demo",
      [("ttl_seconds", .ofNat ttlSeconds), ("max_entries", .ofNat maxEntries),
        ("validate_all_count", .flag validateCount), ("allow_zero_count", .flag allowZeroCount)]⟩
  | readEmpty count => ⟨.info, "Read all domains from an empty store", [("count", .ofNat count)]⟩
  | readEmptyAgain count cachedEntries =>
    ⟨.info, "Read all domains again",
      [("count", .ofNat count), ("cached_entries", .ofNat cachedEntries)]⟩
  | seeded count wildcards =>
    ⟨.info, "Seeded domains", [("count", .ofNat count), ("wildcards", .ofNat wildcards)]⟩
  | readAll count total =>
    ⟨.info, "Read all domains", [("count", .ofNat count), ("total", .ofNat total)]⟩
  | nothingSeeded => ⟨.info, "Nothing seeded, demo finished", []⟩
  | readById id domain =>
    ⟨.info, "Read domain by id", [("id", .number id.toInt), ("domain", .text domain)]⟩
  | readByIds requested found =>
    ⟨.info, "Read domains by id", [("requested", .ofNat requested), ("found", .ofNat found)]⟩
  | renamed id domain =>
    ⟨.info, "Renamed domain", [("id", .number id.toInt), ("domain", .text domain)]⟩
  | rejected id error =>
    ⟨.warn, "Rejected invalid domain, cache entry cleared",
      [("id", .number id.toInt), ("error", .text error)]⟩
  | deleted id stillExists =>
    ⟨.info, "Deleted domain", [("id", .number id.toInt), ("exists", .flag stillExists)]⟩
  | finished total cachedEntries =>
    ⟨.info, "Demo finished",
      [("total", .ofNat total), ("cached_entries", .ofNat cachedEntries)]⟩

end Milestone

end Lookaside.Log
