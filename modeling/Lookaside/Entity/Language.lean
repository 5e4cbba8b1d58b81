import Lookaside.Entity
import Lookaside.Json.Format

namespace Lookaside

open Json

structure Language where
  isoCode : String
deriving DecidableEq, Repr

def Language.format : RecordFormat Language where
  names := ["iso_code"]
  values l := [.text l.isoCode]
  ofColumns?
    | [isoCode] => do return ⟨← Item.required Item.text? isoCode⟩
    | _ => none

instance : Entity Language String where
  typeName := "Language"
  id := Language.isoCode
  hasIdentity l := l.isoCode ≠ ""
  renderId := id
  encode l := .ok (Language.format.encode l)
  decode? := Language.format.decode?

end Lookaside
