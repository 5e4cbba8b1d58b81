import Lookaside.Key
import Lookaside.Marker
import Lookaside.World

namespace Lookaside.Lookup

variable {E ρ I : Type} [Entity E I]

def one (key : String) : Act ρ I (Option E) := do
  match ← Act.get key with
  | .ok (some bytes) =>
    match Entity.decode? bytes with
    | some e => return some e
    | none =>
      Act.report (.undecodable key bytes)
      return none
  | .ok none => return none
  | .error error =>
    Act.report (.readFailed key error)
    return none

/-- The entities under several keys; the first that is absent ends the search. -/
def allOf (requested : Nat) : List String → Act ρ I (Option (List E))
  | [] => return some []
  | key :: keys => do
    match ← one key with
    | some e => return (← allOf requested keys).map (e :: ·)
    | none =>
      Act.report (.partialHit key requested)
      return none

def decodeAll : List (String × Bytes) → Act ρ I (List E)
  | [] => return []
  | (key, bytes) :: entries => do
    match Entity.decode? bytes with
    | some e => return e :: (← decodeAll entries)
    | none =>
      Act.report (.undecodable key bytes)
      decodeAll entries

def family : Act ρ I (List E) := do
  match ← Act.scan (Key.family E) with
  | .ok entries => decodeAll (entries.filter fun e => Key.isItem E e.1)
  | .error error =>
    Act.report (.scanFailed (Key.family E) error)
    return []

variable (E) in
def marker : Act ρ I Bool := do
  match ← Act.get (Key.family E) with
  | .ok (some bytes) => return Marker.isMarker bytes
  | .ok none => return false
  | .error error =>
    Act.report (.readFailed (Key.family E) error)
    return false

end Lookaside.Lookup
