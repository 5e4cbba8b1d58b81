import Lookaside.Entity
import Lookaside.Json.Format

namespace Lookaside

open Json

structure AccessToken where
  code : String
  ident : Bool
  /-- Whether the token refuses to be stored. -/
  poison : Bool
deriving DecidableEq, Repr

def AccessToken.format : RecordFormat AccessToken where
  names := ["code", "ident", "poison"]
  values t := [.text t.code, .flag t.ident, .flag t.poison]
  ofColumns?
    | [code, ident, poison] => do
      return ⟨← Item.required Item.text? code, ← Item.required Item.flag? ident,
        ← Item.required Item.flag? poison⟩
    | _ => none

instance : Entity AccessToken String where
  typeName := "Token"
  id := AccessToken.code
  hasIdentity := AccessToken.ident
  renderId := id
  encode t := if t.poison then .error "poisoned" else .ok (AccessToken.format.encode t)
  decode? := AccessToken.format.decode?

end Lookaside
