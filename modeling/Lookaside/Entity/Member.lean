import Lookaside.Entity
import Lookaside.Json.Format

namespace Lookaside

open Json

structure Member where
  id : Int32
  name : String
deriving DecidableEq, Repr

structure MemberExt where
  id : Int32
  name : String
  extra : Option String
deriving DecidableEq, Repr

def Member.format : RecordFormat Member where
  names := ["id", "name"]
  values m := [.integer m.id.toInt, .text m.name]
  ofColumns?
    | [id, name] => do
      return ⟨← Item.required Item.int32? id, ← Item.required Item.text? name⟩
    | _ => none

def MemberExt.format : RecordFormat MemberExt where
  names := ["id", "name", "extra"]
  values m := [.integer m.id.toInt, .text m.name, .ofOption .text m.extra]
  ofColumns?
    | [id, name, extra] => do
      return ⟨← Item.required Item.int32? id, ← Item.required Item.text? name,
        ← Item.optional Item.text? extra⟩
    | _ => none

instance : NumberedEntity Member where
  typeName := "Member"
  id := Member.id
  hasIdentity m := 0 < m.id
  renderId := renderNumber
  encode m := .ok (Member.format.encode m)
  decode? := Member.format.decode?
  withId id m := { m with id }

instance : Entity MemberExt Int32 where
  typeName := "Member_Ext"
  id := MemberExt.id
  hasIdentity m := 0 < m.id
  renderId := renderNumber
  encode m := .ok (MemberExt.format.encode m)
  decode? := MemberExt.format.decode?

end Lookaside
